/-
JSON values, as far as this library needs to tell them apart.
-/
import DocScribe.Text.Basic

namespace DocScribe

/-- A JSON value. Entries of objects stand in the order in which they are
written. A string whose escapes do not make a text is `brokenText`. -/
inductive JsonValue where
  | null
  | bool (b : Bool)
  | nat (n : Nat)
  /-- A number that is negative, has a fraction or an exponent. -/
  | otherNumber
  | text (t : Text)
  | brokenText
  | array (items : List JsonValue)
  | object (entries : List (Text × JsonValue))

end DocScribe
