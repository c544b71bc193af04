/-
Words on lines: the words of a text set anew, a given number to a line.
-/
import DocScribe.Text.Lines

namespace DocScribe

/-- A list cut into rows of `width + 1` elements, the last possibly shorter;
`room` is what the row in progress still takes. -/
def rowsFrom {α : Type} (width : Nat) : List α → Nat → List α → List (List α)
  | row, _, [] => if row.isEmpty then [] else [row.reverse]
  | row, 0, x :: xs => (x :: row).reverse :: rowsFrom width [] width xs
  | row, room + 1, x :: xs => rowsFrom width (x :: row) room xs

/-- A list cut into rows of at most `n` elements; one row when `n` is zero. -/
def rows {α : Type} (n : Nat) (xs : List α) : List (List α) :=
  match n with
  | 0 => if xs.isEmpty then [] else [xs]
  | width + 1 => rowsFrom width [] width xs

/-- The words of a text on lines of at most `perLine` words, all on one line
when `perLine` is zero. -/
def wrapWords (t : Text) (perLine : Nat) : Text :=
  Text.joinLines ((rows perLine (Text.words t)).map (Text.join [' ']))

end DocScribe
