/-
Writing JSON, one item or entry to a line.
-/
import DocScribe.Json.Basic

namespace DocScribe
namespace JsonValue

/-- One hexadecimal digit. -/
def hexChar (n : Nat) : Char := Nat.digitChar n

/-- A character inside a string. -/
def escaped (c : Char) : Text :=
  match c with
  | '"' => ['\\', '"']
  | '\\' => ['\\', '\\']
  | '\x08' => ['\\', 'b']
  | '\x0c' => ['\\', 'f']
  | '\n' => ['\\', 'n']
  | '\r' => ['\\', 'r']
  | '\t' => ['\\', 't']
  | c =>
    if c.toNat < 32 then ['\\', 'u', '0', '0', hexChar (c.toNat / 16), hexChar (c.toNat % 16)] else [c]

/-- A text as a string. -/
def quoted (t : Text) : Text := '"' :: t.flatMap escaped ++ ['"']

/-- Parts on lines of their own between two brackets. -/
def bracketed (first last : Char) (margin : Text) (parts : List Text) : Text :=
  if parts.isEmpty then [first, last]
  else
    [first, '\n'] ++ Text.join [',', '\n'] (parts.map fun p => margin ++ [' ', ' '] ++ p) ++ ['\n'] ++
      margin ++ [last]

mutual

/-- A value on several lines, given the margin of the line it starts on. -/
def prettyAt (margin : Text) : JsonValue → Text
  | null | otherNumber | brokenText => "null"
  | bool true => "true"
  | bool false => "false"
  | nat n => Text.ofNat n
  | text t => quoted t
  | array items => bracketed '[' ']' margin (prettyItems (margin ++ [' ', ' ']) items)
  | object entries => bracketed '\x7b' '\x7d' margin (prettyEntries (margin ++ [' ', ' ']) entries)

def prettyItems (margin : Text) : List JsonValue → List Text
  | [] => []
  | v :: vs => prettyAt margin v :: prettyItems margin vs

def prettyEntries (margin : Text) : List (Text × JsonValue) → List Text
  | [] => []
  | (k, v) :: es => (quoted k ++ [':', ' '] ++ prettyAt margin v) :: prettyEntries margin es

end

/-- A value on several lines. -/
def pretty (v : JsonValue) : Text := prettyAt [] v

end JsonValue
end DocScribe
