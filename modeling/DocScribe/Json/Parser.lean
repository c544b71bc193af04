/-
Reading JSON.
-/
import DocScribe.Json.Basic
import DocScribe.Unicode.Ranges

namespace DocScribe
namespace JsonValue

/-- Why a text is not JSON. -/
inductive Fault where
  | unexpectedEnd
  | unexpected (c : Char)
  | badEscape
  | brokenKey
  | tooDeep

/-- The wording of a fault. -/
def Fault.message : Fault → Text
  | unexpectedEnd => "unexpected end of input"
  | unexpected c => "unexpected character " ++ [c]
  | badEscape => "invalid escape"
  | brokenKey => "key is not a text"
  | tooDeep => "recursion limit exceeded"

/-- A reader of something at the front of a text. -/
abbrev Read (α : Type) := Text → Except Fault (α × Text)

/-- The white space of JSON. -/
def isSpace (c : Char) : Bool := c == ' ' || c == '\n' || c == '\t' || c == '\r'

def skip (t : Text) : Text := t.dropWhile isSpace

/-- The fault of a text that goes on in a wrong way. -/
def unexpectedAt : Text → Fault
  | [] => .unexpectedEnd
  | c :: _ => .unexpected c

/-- A piece of a string: a character, or half of one that an escape gives. -/
inductive Unit16 where
  | char (c : Char)
  | high (n : Nat)
  | low (n : Nat)

/-- Four hexadecimal digits after `\u`. -/
def codeUnit : Read Unit16
  | a :: b :: c :: d :: rest =>
    match Unicode.hexValue? [a, b, c, d] with
    | some n =>
      .ok (if 0xD800 ≤ n && n < 0xDC00 then .high n
        else if 0xDC00 ≤ n && n < 0xE000 then .low n
        else .char (Char.ofNat n), rest)
    | none => .error .badEscape
  | _ => .error .unexpectedEnd

/-- One escape, after its backslash. -/
def escape : Read Unit16
  | [] => .error .unexpectedEnd
  | 'u' :: t => codeUnit t
  | c :: t =>
    match c with
    | '"' | '\\' | '/' => .ok (.char c, t)
    | 'b' => .ok (.char '\x08', t)
    | 'f' => .ok (.char '\x0c', t)
    | 'n' => .ok (.char '\n', t)
    | 'r' => .ok (.char '\r', t)
    | 't' => .ok (.char '\t', t)
    | _ => .error .badEscape

/-- The pieces of a string, after its opening quote. -/
def stringUnits : Nat → Read (List Unit16)
  | 0, _ => .error .unexpectedEnd
  | fuel + 1, t =>
    match t with
    | [] => .error .unexpectedEnd
    | '"' :: t => .ok ([], t)
    | '\\' :: t => do
      let (u, t) ← escape t
      let (us, t) ← stringUnits fuel t
      .ok (u :: us, t)
    | c :: t =>
      if c.toNat < 32 then .error (.unexpected c)
      else do
        let (us, t) ← stringUnits fuel t
        .ok (.char c :: us, t)

/-- The text of the pieces of a string; halves of characters must stand in
pairs. -/
def joinUnits : List Unit16 → Option Text
  | [] => some []
  | .char c :: us => (joinUnits us).map (c :: ·)
  | .high h :: .low l :: us =>
    (joinUnits us).map (Char.ofNat (0x10000 + (h - 0xD800) * 0x400 + (l - 0xDC00)) :: ·)
  | .high _ :: _ | .low _ :: _ => none

/-- A string, after its opening quote. -/
def string (t : Text) : Except Fault (Option Text × Text) := do
  let (us, t) ← stringUnits (t.length + 1) t
  .ok (joinUnits us, t)

/-- At least one digit. -/
def digits (t : Text) : Except Fault (Text × Text) :=
  match t.takeWhile Char.isDigit with
  | [] => .error (unexpectedAt t)
  | ds => .ok (ds, t.dropWhile Char.isDigit)

/-- The fraction of a number, if it has one. -/
def fraction : Read Bool
  | '.' :: t => do
    let (_, t) ← digits t
    .ok (true, t)
  | t => .ok (false, t)

/-- The exponent of a number, if it has one. -/
def exponent (t : Text) : Except Fault (Bool × Text) :=
  match t with
  | 'e' :: t | 'E' :: t => do
    let t := match t with
      | '+' :: t | '-' :: t => t
      | t => t
    let (_, t) ← digits t
    .ok (true, t)
  | t => .ok (false, t)

/-- A number. -/
def number (t : Text) : Except Fault (JsonValue × Text) := do
  let (negative, t) := match t with
    | '-' :: t => (true, t)
    | t => (false, t)
  let (whole, t) ← match t with
    | '0' :: t =>
      match t with
      | c :: _ => if c.isDigit then .error (.unexpected c) else .ok (['0'], t)
      | [] => .ok (['0'], t)
    | t => digits t
  let (hasFraction, t) ← fraction t
  let (hasExponent, t) ← exponent t
  match Text.digitsValue? whole with
  | some n =>
    if negative || hasFraction || hasExponent || n ≥ 1 <<< 64 then .ok (.otherNumber, t)
    else .ok (.nat n, t)
  | none => .error (unexpectedAt t)

/-- The items of an array after the first bracket or comma. -/
def arrayItems (value : Read JsonValue) : Nat → Read (List JsonValue)
  | 0, _ => .error .unexpectedEnd
  | fuel + 1, t => do
    let (v, t) ← value t
    match skip t with
    | ',' :: t =>
      let (vs, t) ← arrayItems value fuel t
      .ok (v :: vs, t)
    | ']' :: t => .ok ([v], t)
    | t => .error (unexpectedAt t)

/-- The entries of an object after the first brace or comma. -/
def objectEntries (value : Read JsonValue) : Nat → Read (List (Text × JsonValue))
  | 0, _ => .error .unexpectedEnd
  | fuel + 1, t => do
    match skip t with
    | '"' :: t =>
      let (key, t) ← string t
      match key, skip t with
      | some key, ':' :: t =>
        let (v, t) ← value t
        match skip t with
        | ',' :: t =>
          let (es, t) ← objectEntries value fuel t
          .ok ((key, v) :: es, t)
        | '\x7d' :: t => .ok ([(key, v)], t)
        | t => .error (unexpectedAt t)
      | none, _ => .error .brokenKey
      | _, t => .error (unexpectedAt t)
    | t => .error (unexpectedAt t)

/-- A word that stands for a value. -/
def word (w : Text) (v : JsonValue) (t : Text) : Except Fault (JsonValue × Text) :=
  match Text.dropLead? w t with
  | some t => .ok (v, t)
  | none => .error (unexpectedAt t)

/-- A value; `depth` bounds how deep it nests. -/
def read : Nat → Read JsonValue
  | 0, _ => .error .tooDeep
  | depth + 1, t =>
    match skip t with
    | '[' :: t =>
      match skip t with
      | ']' :: t => .ok (.array [], t)
      | t => do
        let (items, t) ← arrayItems (read depth) (t.length + 1) t
        .ok (.array items, t)
    | '\x7b' :: t =>
      match skip t with
      | '\x7d' :: t => .ok (.object [], t)
      | t => do
        let (entries, t) ← objectEntries (read depth) (t.length + 1) t
        .ok (.object entries, t)
    | '"' :: t => do
      let (s, t) ← string t
      .ok ((s.map JsonValue.text).getD .brokenText, t)
    | 't' :: t => word "rue" (.bool true) t
    | 'f' :: t => word "alse" (.bool false) t
    | 'n' :: t => word "ull" .null t
    | t => number t

/-- The value that a text writes. -/
def parse (t : Text) : Except Fault JsonValue := do
  let (v, t) ← read (t.length + 1) t
  match skip t with
  | [] => .ok v
  | c :: _ => .error (.unexpected c)

end JsonValue
end DocScribe
