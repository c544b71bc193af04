/-
Indentation: the description of an indent unit, and the indentation that a
documentation block takes over from the text around it.
-/
import DocScribe.Text.Lines

namespace DocScribe

/-- The value of a count as settings write it: decimal digits, an optional
plus sign before them, small enough for a machine word. -/
def count? (t : Text) : Option Nat :=
  let digits := match t with
    | '+' :: rest => rest
    | _ => t
  (Text.digitsValue? digits).filter (· < 1 <<< 63)

/-- The white space that an indent description stands for: `tab` is a tab,
`4 spaces` are four spaces, and any other text stands for itself. -/
def indentUnit (description : Text) : Text :=
  let trimmed := Text.trim description
  let lower := Text.asciiLower trimmed
  if lower = ("tab" : Text) ∨ lower = ("tabs" : Text) then ['\t']
  else
    match Text.words trimmed with
    | [count, unit] =>
      if unit = ("space" : Text) ∨ unit = ("spaces" : Text) then
        match count? count with
        | some n => List.replicate n ' '
        | none => description
      else description
    | _ => description

/-- The margin of the first line that is not blank, the line in progress
apart; empty when there is none. -/
def bodyMargin (rest : Text) : Text :=
  (((Text.segments rest).tail.find? fun line => !Text.allBlank line).map Text.margin).getD []

/-- The margin of the line in progress at the end of a text. -/
def lineMargin (head : Text) : Text := Text.margin (Text.lastSegment head)

/-- The indentation of the body of a construct that ends at an offset. There
is no answer for an offset that does not cut the text. -/
def bodyIndentation? (t : Text) (stop : Nat) : Option Text := (t.after? stop).map bodyMargin

/-- The indentation of a construct that starts at an offset. -/
def declarationIndentation? (t : Text) (start : Nat) : Option Text := (t.before? start).map lineMargin

end DocScribe
