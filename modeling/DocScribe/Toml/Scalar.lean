/-
The values of TOML that hold no other values: strings, numbers, dates.
-/
import DocScribe.Toml.Basic
import DocScribe.Unicode.Ranges

namespace DocScribe
namespace Toml

/-- A reader of something at the front of a text. -/
abbrev Read (α : Type) := Text → Except Fault (α × Text)

/-- Whether a character may not stand in comments and strings. -/
def isControl (c : Char) : Bool := (c.toNat < 32 && c != '\t') || c.toNat == 127

def skipBlanks (t : Text) : Text := t.dropWhile fun c => c == ' ' || c == '\t'

/-- The fault of a text that goes on in a wrong way. -/
def unexpectedAt : Text → Fault
  | [] => .unexpectedEnd
  | c :: _ => .unexpected c

/-- `n` hexadecimal digits of a code point. -/
def codePoint (n : Nat) (t : Text) : Except Fault (Char × Text) :=
  if t.length < n then .error .unexpectedEnd
  else
    match Unicode.hexValue? (t.take n) with
    | some v => if v.isValidChar then .ok (Char.ofNat v, t.drop n) else .error .badEscape
    | none => .error .badEscape

/-- One escape, after its backslash. -/
def escape : Read Char
  | [] => .error .unexpectedEnd
  | c :: t =>
    match c with
    | 'b' => .ok ('\x08', t)
    | 't' => .ok ('\t', t)
    | 'n' => .ok ('\n', t)
    | 'f' => .ok ('\x0c', t)
    | 'r' => .ok ('\r', t)
    | 'e' => .ok ('\x1b', t)
    | '"' => .ok ('"', t)
    | '\\' => .ok ('\\', t)
    | 'x' => codePoint 2 t
    | 'u' => codePoint 4 t
    | 'U' => codePoint 8 t
    | _ => .error .badEscape

/-- A string with escapes on one line, after its quote. -/
def basicString : Nat → Read Text
  | 0, _ => .error .unexpectedEnd
  | fuel + 1, t =>
    match t with
    | [] => .error .unexpectedEnd
    | '"' :: t => .ok ([], t)
    | '\\' :: t => do
      let (c, t) ← escape t
      let (s, t) ← basicString fuel t
      .ok (c :: s, t)
    | c :: t =>
      if isControl c then .error (.unexpected c)
      else do
        let (s, t) ← basicString fuel t
        .ok (c :: s, t)

/-- A string without escapes on one line, after its quote. -/
def literalString (t : Text) : Except Fault (Text × Text) :=
  let body := t.takeWhile (· != '\'')
  match t.dropWhile (· != '\'') with
  | _ :: rest => if body.any isControl then .error .badValue else .ok (body, rest)
  | [] => .error .unexpectedEnd

/-- The text after a line ending, if it starts with one. -/
def dropNewline? : Text → Option Text
  | '\n' :: t | '\r' :: '\n' :: t => some t
  | _ => none

/-- The end of a string of several lines: up to two quotes of its own, then
three that end it. -/
def longEnd? (quote : Char) (t : Text) : Option (Text × Text) :=
  let quotes := t.takeWhile (· == quote)
  let rest := t.dropWhile (· == quote)
  if quotes.length < 3 then none
  else if quotes.length ≤ 5 then some (quotes.drop 3, rest)
  else some ([quote, quote], quotes.drop 5 ++ rest)

/-- The text after a backslash at the end of a line, with the white space and
line endings that it takes away; `seen` tells that a line has ended. -/
def continueLine : Nat → Bool → Text → Option Text
  | 0, _, _ => none
  | fuel + 1, seen, t =>
    match dropNewline? t with
    | some t => continueLine fuel true t
    | none =>
      match t with
      | ' ' :: t | '\t' :: t => continueLine fuel seen t
      | t => if seen then some t else none

/-- A string of several lines with escapes, after its quotes. -/
def longBasicString : Nat → Read Text
  | 0, _ => .error .unexpectedEnd
  | fuel + 1, t =>
    match longEnd? '"' t with
    | some (s, t) => .ok (s, t)
    | none =>
      match t with
      | [] => .error .unexpectedEnd
      | '\\' :: t =>
        match continueLine (t.length + 1) false t with
        | some t => longBasicString fuel t
        | none => do
          let (c, t) ← escape t
          let (s, t) ← longBasicString fuel t
          .ok (c :: s, t)
      | '\r' :: '\n' :: t => do
        let (s, t) ← longBasicString fuel t
        .ok ('\r' :: '\n' :: s, t)
      | c :: t =>
        if isControl c && c != '\n' then .error (.unexpected c)
        else do
          let (s, t) ← longBasicString fuel t
          .ok (c :: s, t)

/-- A string of several lines without escapes, after its quotes. -/
def longLiteralString : Nat → Read Text
  | 0, _ => .error .unexpectedEnd
  | fuel + 1, t =>
    match longEnd? '\'' t with
    | some (s, t) => .ok (s, t)
    | none =>
      match t with
      | [] => .error .unexpectedEnd
      | '\r' :: '\n' :: t => do
        let (s, t) ← longLiteralString fuel t
        .ok ('\r' :: '\n' :: s, t)
      | c :: t =>
        if isControl c && c != '\n' then .error (.unexpected c)
        else do
          let (s, t) ← longLiteralString fuel t
          .ok (c :: s, t)

/-- A string, after its first quote. -/
def string (quote : Char) (t : Text) : Except Fault (Text × Text) :=
  match t with
  | a :: b :: t' =>
    if a = quote && b = quote then
      let t' := (dropNewline? t').getD t'
      if quote = '"' then longBasicString (t'.length + 1) t' else longLiteralString (t'.length + 1) t'
    else if quote = '"' then basicString (t.length + 1) t
    else literalString t
  | t => if quote = '"' then basicString (t.length + 1) t else literalString t

/-- Whether a character can stand in a number, a date or a word. -/
def isScalarChar (c : Char) : Bool :=
  c.isAlphanum || c == '+' || c == '-' || c == '.' || c == '_' || c == ':'

/-- Digits of a base with single underscores between them, without the
underscores. -/
def groupedDigits? (isDigit : Char → Bool) (t : Text) : Option Text :=
  let groups := Text.pieces (· == '_') t
  if groups.all fun g => !g.isEmpty && g.all isDigit then some groups.flatten else none

/-- The value of digits in a base. -/
def inBase (base : Nat) (t : Text) : Nat :=
  t.foldl (fun n c => base * n + (Unicode.hexDigit? c).getD 0) 0

/-- A number without a sign in a base that its first two characters tell. -/
def prefixedInt? : Text → Option Int
  | '0' :: 'x' :: t => (groupedDigits? (fun c => (Unicode.hexDigit? c).isSome) t).map fun d => (inBase 16 d : Int)
  | '0' :: 'o' :: t => (groupedDigits? (fun c => '0' ≤ c && c ≤ '7') t).map fun d => (inBase 8 d : Int)
  | '0' :: 'b' :: t => (groupedDigits? (fun c => c == '0' || c == '1') t).map fun d => (inBase 2 d : Int)
  | _ => none

/-- The sign of a number, and the rest. -/
def sign : Text → Bool × Text
  | '-' :: t => (true, t)
  | '+' :: t => (false, t)
  | t => (false, t)

/-- Decimal digits without a zero before others. -/
def wholeNumber? (t : Text) : Option Text :=
  (groupedDigits? Char.isDigit t).filter fun d => d.length = 1 || d.head? ≠ some '0'

/-- A decimal number, possibly with a sign. -/
def decimalInt? (t : Text) : Option Int :=
  let (negative, t) := sign t
  (wholeNumber? t).map fun d => if negative then -(inBase 10 d : Int) else inBase 10 d

/-- The exponent of a number. -/
def isExponent (t : Text) : Bool := (groupedDigits? Char.isDigit (sign t).2).isSome

/-- Whether a text is a number with a fraction or an exponent. -/
def isFloat (t : Text) : Bool :=
  let t := (sign t).2
  if t = ("inf" : Text) || t = ("nan" : Text) then true
  else
    let whole := t.takeWhile fun c => c.isDigit || c == '_'
    let rest := t.dropWhile fun c => c.isDigit || c == '_'
    (wholeNumber? whole).isSome &&
      match rest with
      | '.' :: rest =>
        let fraction := rest.takeWhile fun c => c.isDigit || c == '_'
        (groupedDigits? Char.isDigit fraction).isSome &&
          match rest.dropWhile fun c => c.isDigit || c == '_' with
          | [] => true
          | e :: t => (e == 'e' || e == 'E') && isExponent t
      | e :: t => (e == 'e' || e == 'E') && isExponent t
      | [] => false

/-- The exponent of a number with a fraction or an exponent, zero when none is
written. -/
def exponentOf (t : Text) : Int :=
  match t.dropWhile fun c => c != 'e' && c != 'E' with
  | [] => 0
  | _ :: t =>
    let (negative, digits) := sign t
    let n : Int := inBase 10 (digits.filter (· != '_'))
    if negative then -n else n

/-- Whether a number with a fraction or an exponent lies beyond the greatest
64-bit floating-point number and would be rounded up from it. Only numbers of
309 or 310 digits before the point need a closer look. -/
def overflowsFloat (t : Text) : Bool :=
  let mantissa := ((sign t).2.takeWhile fun c => c != 'e' && c != 'E').filter (· != '_')
  let fraction := (mantissa.dropWhile (· != '.')).drop 1
  let digits := (mantissa.filter (· != '.')).dropWhile (· == '0')
  let scale := exponentOf t - fraction.length
  let places := digits.length + scale
  let limit := 1 <<< 1024 - 1 <<< 970
  if digits.isEmpty || places < 309 then false
  else if 310 < places then true
  else if 0 ≤ scale then limit ≤ inBase 10 digits * Nat.pow 10 scale.toNat
  else limit * Nat.pow 10 (-scale).toNat ≤ inBase 10 digits

/-- Whether a whole number fits into 128 bits, with a sign or without. -/
def fitsInt (n : Int) : Bool := -(1 <<< 127 : Nat) ≤ n && n < (1 <<< 128 : Nat)

/-- Exactly `n` digits as a number. -/
def digits? (n : Nat) (t : Text) : Option (Nat × Text) :=
  if t.length < n then none else (Text.digitsValue? (t.take n)).map fun v => (v, t.drop n)

/-- How many days a month has. -/
def daysIn (year month : Nat) : Nat :=
  if month = 2 then (if year % 4 = 0 && (year % 100 ≠ 0 || year % 400 = 0) then 29 else 28)
  else if [4, 6, 9, 11].contains month then 30
  else 31

/-- The text after a date. -/
def date? (t : Text) : Option Text :=
  (digits? 4 t).bind fun (year, t) =>
    match t with
    | '-' :: t =>
      (digits? 2 t).bind fun (month, t) =>
        match t with
        | '-' :: t =>
          (digits? 2 t).bind fun (day, t) =>
            if 1 ≤ month && month ≤ 12 && 1 ≤ day && day ≤ daysIn year month then some t else none
        | _ => none
    | _ => none

/-- The text after the seconds of a time, which may be missing. -/
def seconds? : Text → Option Text
  | ':' :: t =>
    (digits? 2 t).bind fun (second, t) =>
      if second > 60 then none
      else
        match t with
        | '.' :: t => if (t.takeWhile Char.isDigit).isEmpty then none else some (t.dropWhile Char.isDigit)
        | t => some t
  | t => some t

/-- The text after a time. -/
def time? (t : Text) : Option Text :=
  (digits? 2 t).bind fun (hour, t) =>
    match t with
    | ':' :: t =>
      (digits? 2 t).bind fun (minute, t) => if hour ≤ 23 && minute ≤ 59 then seconds? t else none
    | _ => none

/-- Whether a text is the offset of a time, or empty. -/
def isOffset : Text → Bool
  | [] | ['Z'] | ['z'] => true
  | '+' :: t | '-' :: t =>
    match digits? 2 t with
    | some (hour, ':' :: t) =>
      match digits? 2 t with
      | some (minute, []) => hour ≤ 23 && minute ≤ 59
      | _ => false
    | _ => false
  | _ => false

/-- Whether a text is a date, a time, or both. -/
def isDate (t : Text) : Bool :=
  match date? t with
  | some [] => true
  | some (c :: rest) => (c == 'T' || c == 't' || c == ' ') && ((time? rest).map isOffset).getD false
  | none => time? t = some []

/-- The value of a word, a number or a date. -/
def scalar? (t : Text) : Option Value :=
  if t = ("true" : Text) then some (.bool true)
  else if t = ("false" : Text) then some (.bool false)
  else
    match prefixedInt? t <|> decimalInt? t with
    | some n => if fitsInt n then some (.int n) else none
    | none =>
      if isFloat t then (if overflowsFloat t then none else some .float)
      else if isDate t then some .date
      else none

/-- A word, a number or a date. A blank may stand between a date and a time. -/
def scalar (t : Text) : Except Fault (Value × Text) :=
  let first := t.takeWhile isScalarChar
  let rest := t.dropWhile isScalarChar
  let whole := match date? first, rest with
    | some [], ' ' :: c :: more =>
      if c.isDigit then
        let time := (c :: more).takeWhile isScalarChar
        (first ++ [' '] ++ time, (c :: more).dropWhile isScalarChar)
      else (first, rest)
    | _, _ => (first, rest)
  match scalar? whole.1 with
  | some v => .ok (v, whole.2)
  | none => .error (if t.isEmpty then .unexpectedEnd else .badValue)

end Toml
end DocScribe
