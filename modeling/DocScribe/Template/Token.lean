/-
The tokens of templates.

Outside of tags a template is plain text. Inside a tag stand names, literals
and marks. A hyphen at either end of a tag takes the white space next to it
away, and the text of a raw section is not looked into.
-/
import DocScribe.Text.Blank
import DocScribe.Unicode.Ranges

namespace DocScribe
namespace Template

/-- Why a template could not be rendered. -/
inductive Fault where
  /-- The text is not a template. -/
  | malformed (expected : Text)
  | unknown (sort name : Text)
  /-- A value of the wrong sort was used. -/
  | unsuited (use : Text)
  | undefinedValue
  | notFound (name : Text)
  | outOfRange
  | tooDeep
  deriving DecidableEq

/-- The wording of a fault. -/
def Fault.message : Fault → Text
  | malformed expected => "malformed template: expected " ++ expected
  | unknown sort name => "unknown " ++ sort ++ " " ++ name
  | unsuited use => "invalid operation: " ++ use
  | undefinedValue => "undefined value"
  | notFound name => "template " ++ name ++ " does not exist"
  | outOfRange => "number out of range"
  | tooDeep => "recursion limit exceeded"

/-- A token of a template. -/
inductive Token where
  | text (t : Text)
  | showOpen
  | showClose
  | tagOpen
  | tagClose
  | name (t : Text)
  | str (t : Text)
  | int (n : Nat)
  /-- The number `digits * 10 ^ scale`. -/
  | real (digits : Nat) (scale : Int)
  | mark (t : Text)
  deriving DecidableEq

/-- The marks of two characters. -/
def doubleMarks : List Text := ["//", "**", "==", "!=", ">=", "<="]

/-- The marks of one character. -/
def singleMarks : List Char :=
  ['+', '-', '*', '/', '%', '~', '.', ',', ':', '(', ')', '[', ']', '\x7b', '\x7d', '|', '=', '>', '<']

def isNameStart (c : Char) : Bool := c.isAlpha || c == '_'

def isNameChar (c : Char) : Bool := c.isAlphanum || c == '_'

/-- The text before the next tag or comment, with the character that tells
what it is and the text after it. -/
def nextTag : Text → Text × Option (Char × Text)
  | '\x7b' :: '\x7b' :: rest => ([], some ('\x7b', rest))
  | '\x7b' :: '%' :: rest => ([], some ('%', rest))
  | '\x7b' :: '#' :: rest => ([], some ('#', rest))
  | [] => ([], none)
  | c :: rest => let (lead, tag) := nextTag rest; (c :: lead, tag)

/-- A sign at the start of a tag: whether it takes away the white space before
the tag, and the text after it. -/
def leadSign : Text → Bool × Text
  | '-' :: rest => (true, rest)
  | '+' :: rest => (false, rest)
  | t => (false, t)

/-- The end of a tag that consists of one word, after the start of the tag:
whether it takes away the white space after it, and the text after it. -/
def wordTag? (word t : Text) : Option (Bool × Text) :=
  (Text.dropLead? word (leadSign t).2.trimStart).bind fun t =>
    match t.trimStart with
    | '-' :: '%' :: '\x7d' :: rest => some (true, rest)
    | '+' :: '%' :: '\x7d' :: rest | '%' :: '\x7d' :: rest => some (false, rest)
    | _ => none

/-- The text of a raw section up to its end: the text, whether the white space
at its end and after its end tag is taken away, and the text after. -/
def rawSection? : Text → Option (Text × Bool × Bool × Text)
  | [] => none
  | c :: rest =>
    let ending := match c, rest with
      | '\x7b', '%' :: inner => (wordTag? "endraw" inner).map fun tail => ((leadSign inner).1, tail)
      | _, _ => none
    match ending with
    | some (trimBefore, trimAfter, after) => some ([], trimBefore, trimAfter, after)
    | none => (rawSection? rest).map fun found => (c :: found.1, found.2)

/-- A string literal after its quote. -/
def stringBody (quote : Char) : Text → Option (Text × Text)
  | [] => none
  | '\\' :: c :: rest => (stringBody quote rest).map fun found => ('\\' :: c :: found.1, found.2)
  | c :: rest =>
    if c = quote then some ([], rest) else (stringBody quote rest).map fun found => (c :: found.1, found.2)

/-- Four hexadecimal digits. -/
def fourHex? : Text → Option (Nat × Text)
  | a :: b :: c :: d :: rest => (Unicode.hexValue? [a, b, c, d]).map fun n => (n, rest)
  | _ => none

/-- The characters of a string literal; `fuel` bounds their number. -/
def unescape : Nat → Text → Option Text
  | 0, _ => some []
  | fuel + 1, t =>
    match t with
    | [] => some []
    | '\\' :: 'u' :: rest =>
      (fourHex? rest).bind fun (n, rest) =>
        if 0xD800 ≤ n && n < 0xDC00 then
          match rest with
          | '\\' :: 'u' :: rest =>
            (fourHex? rest).bind fun (m, rest) =>
              if 0xDC00 ≤ m && m < 0xE000 then
                (unescape fuel rest).map
                  (Char.ofNat (0x10000 + (n - 0xD800) * 0x400 + (m - 0xDC00)) :: ·)
              else none
          | _ => none
        else if 0xDC00 ≤ n && n < 0xE000 then none
        else (unescape fuel rest).map (Char.ofNat n :: ·)
    | '\\' :: c :: rest =>
      let plain : Option Char := match c with
        | '"' | '\\' | '/' | '\'' => some c
        | 'b' => some '\x08'
        | 'f' => some '\x0c'
        | 'n' => some '\n'
        | 'r' => some '\r'
        | 't' => some '\t'
        | _ => none
      plain.bind fun c => (unescape fuel rest).map (c :: ·)
    | c :: rest => (unescape fuel rest).map (c :: ·)

/-- Where reading a number stands. -/
inductive NumberPart where
  /-- After the mark of a base other than ten. -/
  | based
  | whole
  | fraction
  | exponent
  | exponentDigits
  deriving DecidableEq

/-- What a character is to a number, if it belongs to it. -/
def NumberPart.next? (base : Nat) (part : NumberPart) (c : Char) : Option NumberPart :=
  match part with
  | .exponent =>
    if c.isDigit || c = '+' || c = '-' then some .exponentDigits else if c = '_' then some part else none
  | part =>
    if c.isDigit || c = '_' then some part
    else if part = .based && base = 16 && (Unicode.hexValue? [c]).isSome then some part
    else if part = .whole && c = '.' then some .fraction
    else if (part = .whole || part = .fraction) && (c = 'e' || c = 'E') then some .exponent
    else none

/-- The characters of a number, the part of it that was reached, and the rest. -/
def numberText (base : Nat) (part : NumberPart) : Text → Text × NumberPart × Text
  | [] => ([], part, [])
  | c :: rest =>
    match part.next? base c with
    | some part => let (t, part, rest) := numberText base part rest; (c :: t, part, rest)
    | none => ([], part, c :: rest)

/-- The number that digits of a base stand for. -/
def basedValue? (base : Nat) (t : Text) : Option Nat :=
  if t.isEmpty then none
  else
    t.foldl (fun n c =>
      n.bind fun n => (Unicode.hexValue? [c]).bind fun d => if d < base then some (base * n + d) else none) (some 0)

/-- The number that is written with a point or an exponent. -/
def realToken? (t : Text) : Option Token :=
  let isMark (c : Char) : Bool := c = 'e' || c = 'E'
  let body := t.takeWhile fun c => !isMark c
  let wholePart := body.takeWhile (· != '.')
  let places := body.drop (wholePart.length + 1)
  let power : Option Int :=
    match t.drop body.length with
    | [] => some 0
    | _ :: '-' :: ds => (Text.digitsValue? ds).map fun n => -(n : Int)
    | _ :: '+' :: ds | _ :: ds => (Text.digitsValue? ds).map fun n => (n : Int)
  (Text.digitsValue? (wholePart ++ places)).bind fun digits =>
    power.map fun power => .real digits (power - places.length)

/-- A number at the front of a text that starts with a digit. -/
def numberToken (t : Text) : Except Fault (Token × Text) :=
  let (base, body) : Nat × Text :=
    match t with
    | '0' :: c :: rest =>
      if c = 'b' || c = 'B' then (2, rest)
      else if c = 'o' || c = 'O' then (8, rest)
      else if c = 'x' || c = 'X' then (16, rest)
      else (10, t)
    | t => (10, t)
  let (written, part, rest) := numberText base (if base = 10 then .whole else .based) body
  let digits := written.filter (· != '_')
  if written.getLast? = some '_' then .error (.malformed "digit")
  else
    let token :=
      if part = .whole || part = .based then
        (basedValue? base digits).bind fun n => if n < 1 <<< 128 then some (Token.int n) else none
      else realToken? digits
    match token with
    | some token => .ok (token, rest)
    | none => .error (.malformed "number")

/-- One token inside a tag, given its first character. -/
def innerToken (c : Char) (rest : Text) : Except Fault (Token × Text) :=
  if isNameStart c then
    .ok (.name (c :: rest.takeWhile isNameChar), rest.dropWhile isNameChar)
  else if c.isDigit then numberToken (c :: rest)
  else if c = '"' || c = '\'' then
    match stringBody c rest with
    | some (body, rest) =>
      match unescape (body.length + 1) body with
      | some t => .ok (.str t, rest)
      | none => .error (.malformed "escape")
    | none => .error (.malformed "end of string")
  else
    match doubleMarks.find? fun m => Text.startsWith (c :: rest) m with
    | some m => .ok (.mark m, rest.drop 1)
    | none => if singleMarks.contains c then .ok (.mark [c], rest) else .error (.malformed "mark")

/-- The end of a tag: whether it takes away the white space after it, and the
text after it. `edge` is the character that tells what tag it is. -/
def tagEnd? (edge : Char) : Text → Option (Bool × Text)
  | '-' :: a :: '\x7d' :: rest => if a = edge then some (true, rest) else none
  | '+' :: a :: '\x7d' :: rest => if a = edge then some (false, rest) else none
  | a :: '\x7d' :: rest => if a = edge then some (false, rest) else none
  | _ => none

/-- Where reading the tokens stands. -/
inductive Mode where
  /-- In plain text; the white space at its start may have to go. -/
  | outside (trim : Bool)
  /-- In a tag with the given edge, inside so many brackets. -/
  | inside (edge : Char) (brackets : Nat)

/-- How a token changes the number of open brackets. -/
def bracketsAfter (brackets : Nat) : Token → Nat
  | .mark ['('] | .mark ['['] | .mark ['\x7b'] => brackets + 1
  | .mark [')'] | .mark [']'] | .mark ['\x7d'] => brackets - 1
  | _ => brackets

/-- Plain text as a token, unless it is empty. -/
def textToken (t : Text) : List Token := if t.isEmpty then [] else [.text t]

/-- The tokens of the rest of a template; `fuel` bounds their number. -/
def readTokens : Nat → Mode → Text → Except Fault (List Token)
  | 0, _, _ => .ok []
  | fuel + 1, .outside trim, t =>
    let t := if trim then t.trimStart else t
    match nextTag t with
    | (lead, none) => .ok (textToken lead)
    | (lead, some (edge, rest)) =>
      let (trimLead, inner) := leadSign rest
      let lead := textToken (if trimLead then lead.trimEnd else lead)
      if edge = '#' then
        match Text.breakAt? ['#', '\x7d'] rest with
        | some (comment, after) => do
          .ok (lead ++ (← readTokens fuel (.outside (Text.endsWith comment ['-'])) after))
        | none => .error (.malformed "end of comment")
      else if edge = '%' then
        match wordTag? "raw" rest with
        | some (trimStart, after) =>
          match rawSection? after with
          | some (raw, trimEnd, trimAfter, after) => do
            let raw := if trimStart then raw.trimStart else raw
            let raw := if trimEnd then raw.trimEnd else raw
            .ok (lead ++ textToken raw ++ (← readTokens fuel (.outside trimAfter) after))
          | none => .error (.malformed "end of raw section")
        | none => do .ok (lead ++ .tagOpen :: (← readTokens fuel (.inside '%' 0) inner))
      else do .ok (lead ++ .showOpen :: (← readTokens fuel (.inside '\x7d' 0) inner))
  | fuel + 1, .inside edge brackets, t =>
    let t := t.dropWhile Char.isWhitespace
    let close : Token := if edge = '%' then .tagClose else .showClose
    match if brackets = 0 then tagEnd? edge t else none with
    | some (trim, rest) => do .ok (close :: (← readTokens fuel (.outside trim) rest))
    | none =>
      match t with
      | [] => .ok []
      | c :: rest => do
        let (token, rest) ← innerToken c rest
        .ok (token :: (← readTokens fuel (.inside edge (bracketsAfter brackets token)) rest))

/-- The tokens of a template. One line ending at its end does not count. -/
def tokens (t : Text) : Except Fault (List Token) :=
  let t := (Text.dropTail? ['\n'] t).getD t
  let t := (Text.dropTail? ['\r'] t).getD t
  readTokens (2 * t.length + 2) (.outside false) t

end Template
end DocScribe
