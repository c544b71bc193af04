/-
Sets of code points as tables of ranges, and the compact text in which the
tables of this library are written: words such as `41-5a` and `b5`.
-/
import DocScribe.Text.Blank

namespace DocScribe.Unicode

/-- Ranges of code points, ends included, in increasing order. -/
abbrev Ranges := List (Nat × Nat)

/-- Whether one of the ranges holds a code point. -/
def Ranges.holds : Ranges → Nat → Bool
  | [], _ => false
  | (lo, hi) :: rest, n => if n < lo then false else n ≤ hi || Ranges.holds rest n

/-- The value of a hexadecimal digit. -/
def hexDigit? (c : Char) : Option Nat :=
  if c.isDigit then some (c.toNat - '0'.toNat)
  else if 'a' ≤ c ∧ c ≤ 'f' then some (c.toNat - 'a'.toNat + 10)
  else if 'A' ≤ c ∧ c ≤ 'F' then some (c.toNat - 'A'.toNat + 10)
  else none

/-- The number that a non-empty row of hexadecimal digits stands for. -/
def hexValue? (t : Text) : Option Nat :=
  if t.isEmpty then none
  else t.foldl (fun n c => n.bind fun n => (hexDigit? c).map fun d => 16 * n + d) (some 0)

/-- One range from its written form. -/
def rangeOfHex? (word : Text) : Option (Nat × Nat) :=
  match Text.pieces (· == '-') word with
  | [one] => (hexValue? one).map fun n => (n, n)
  | [lo, hi] => (hexValue? lo).bind fun a => (hexValue? hi).map fun b => (a, b)
  | _ => none

/-- A table from its written form. -/
def Ranges.ofHex (table : String) : Ranges := (Text.words table.toList).filterMap rangeOfHex?

/-- Classes of code points from their written form, such as `4b/6b/212a`. -/
def orbitsOfHex (table : String) : List (List Nat) :=
  (Text.words table.toList).map fun word => (Text.pieces (· == '/') word).filterMap hexValue?

end DocScribe.Unicode
