/-
Grammars: shapes whose patterns have been read, ready to be matched.
-/
import DocScribe.Pattern.Parser
import DocScribe.Pattern.Search
import DocScribe.Scan.Shape

namespace DocScribe

/-- How the arguments of a method are told apart. -/
inductive Splitter where
  | literal (separator : Text)
  | pattern (separator : Pattern)

/-- A shape that is ready to be matched. -/
structure Grammar where
  shape : Shape
  pattern : Pattern
  /-- Given for methods only. -/
  splitter : Option Splitter

namespace Grammar

/-- The separator of arguments, read where it is a pattern. -/
def splitterOf : Option ArgumentTokens → Except Pattern.Fault (Option Splitter)
  | none => .ok none
  | some a =>
    if a.regex then (Pattern.parse a.separator).map fun p => some (.pattern p)
    else .ok (some (.literal a.separator))

/-- The grammar of a shape. -/
def ofShape (s : Shape) : Except Failure Grammar :=
  match Pattern.parse s.source, splitterOf s.arguments with
  | .ok pattern, .ok splitter => .ok ⟨s, pattern, splitter⟩
  | .error fault, _ | _, .error fault => .error (.badPattern s.extension s.kind fault.message)

/-- The grammar that rules describe. -/
def ofRules (kind : Kind) (extension : Text) (c : ConstructRules) (a : ArgumentRules) :
    Except Failure Grammar :=
  (Shape.ofRules kind extension c a).bind ofShape

/-- The pieces of an argument list. -/
def splitArguments (g : Grammar) (list : Text) : List Text :=
  match g.splitter with
  | some (.literal separator) => Text.splitOn separator list
  | some (.pattern separator) => separator.split list
  | none => []

end Grammar
end DocScribe
