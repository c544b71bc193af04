/-
Tracing lines back through insertions.

Every round of insertions adds a layer: for each block, the line it starts at
in the text it was put into, counted without the other blocks, and how many
lines it has. `LineHistory.initialLine` undoes the layers, the latest first.
-/
import DocScribe.Splice.Basic
import DocScribe.Text.LineTable

namespace DocScribe

/-- A run of inserted lines: the line it pushes down, and its length. -/
abbrev Inserted := Nat × Nat

/-- The insertions of one round, in increasing order. -/
abbrev Layer := List Inserted

/-- The rounds of insertions into a file, the latest first. -/
structure LineHistory where
  layers : List Layer := []

namespace LineHistory

/-- The order of runs in a layer. -/
def leInserted (a b : Inserted) : Bool := a.1 < b.1 || (a.1 = b.1 && a.2 ≤ b.2)

/-- The run of lines that a block adds to a text with the given lines. -/
def inserted? (t : Text) (table : LineTable) (b : Block) : Option Inserted :=
  (b.point? t).map fun p =>
    (table.lineOf p.position + (if p.fresh then 1 else 0), (Text.lines b.text).length)

/-- The history after one more round, given the text before it. -/
def record? (h : LineHistory) (t : Text) (blocks : List Block) : Option LineHistory :=
  (blocks.mapM (inserted? t (LineTable.ofText t))).map fun layer => ⟨sorted leInserted layer :: h.layers⟩

/-- How many of the lines before `line` were inserted, when `passed` are known
to have been. -/
def passedLines (line : Nat) : Nat → Layer → Nat
  | passed, [] => passed
  | passed, (first, count) :: layer =>
    if line < first + passed + count then passed else passedLines line (passed + count) layer

/-- The line that a line was before one round. -/
def lineBefore (layer : Layer) (line : Nat) : Nat := line - passedLines line 0 layer

/-- The line that a line was before all rounds. -/
def initialLine (h : LineHistory) (line : Nat) : Nat :=
  h.layers.foldl (fun line layer => lineBefore layer line) line

/-- Whether no block was ever put in. -/
def isEmpty (h : LineHistory) : Bool := h.layers.all List.isEmpty

end LineHistory
end DocScribe
