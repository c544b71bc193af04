/-
Change sets: the regions of files that a change touched.
-/
import DocScribe.Path

namespace DocScribe

/-- A changed region: its first and last line, counted from one, and the text
of the change. -/
structure Hunk where
  first : Nat
  last : Nat
  text : Text
  deriving DecidableEq

/-- The changed regions of one file. -/
structure FileChange where
  path : Path
  hunks : List Hunk
  deriving DecidableEq

/-- The changed regions of several files. -/
structure ChangeSet where
  files : List FileChange

/-- Whether a line lies in a region. -/
def Hunk.covers (h : Hunk) (line : Nat) : Bool := h.first ≤ line && line ≤ h.last

/-- Whether a text at a line is part of a change: a region holds the line and
the text of its change holds the text. -/
def FileChange.touches (c : FileChange) (line : Nat) (t : Text) : Bool :=
  c.hunks.any fun h => h.covers line && Text.holds t h.text

namespace ChangeSet

/-- Whether a path as written in a change set can stand for a path. -/
def agrees (written path : Path) : Bool :=
  !written.text.isEmpty && (path.endsWith written || written.endsWith path)

/-- The changes of a file: those under the same path, else the first under a
path of which one is the end of the other. -/
def find? (s : ChangeSet) (path : Path) : Option FileChange :=
  (s.files.find? fun c => c.path.same path) <|> s.files.find? fun c => agrees c.path path

def paths (s : ChangeSet) : List Path := s.files.map (·.path)

end ChangeSet
end DocScribe
