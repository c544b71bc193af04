/-
What can be documented: the kinds of construct of a source file, and the two
places a documentation block can take next to its construct.
-/
import DocScribe.Text.Basic

namespace DocScribe

/-- The documentable constructs: the header of a file, its classes, its
methods. -/
inductive Kind where
  | header
  | classDef
  | method
  deriving DecidableEq

/-- Every kind, in the order in which a file is worked on. -/
def Kind.all : List Kind := [.header, .classDef, .method]

/-- The name of a kind in settings and reports. -/
def Kind.name : Kind → Text
  | .header => "top"
  | .classDef => "class"
  | .method => "method"

/-- A block goes on the lines above its construct, or on the lines below the
end of the construct's signature. -/
inductive Placement where
  | before
  | after
  deriving DecidableEq

end DocScribe
