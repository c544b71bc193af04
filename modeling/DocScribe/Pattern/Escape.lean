/-
What a backslash introduces in a written pattern.
-/
import DocScribe.Pattern.Flags
import DocScribe.Pattern.Quote

namespace DocScribe
namespace Pattern

/-- A text without leading blanks and comments; `inComment` says that it
starts inside a comment, which a line feed ends. -/
def skipBlanks (inComment : Bool) : Text → Text
  | [] => []
  | c :: t =>
    if inComment then skipBlanks (c != '\n') t
    else if isBlank c then skipBlanks false t
    else if c = '#' then skipBlanks true t
    else c :: t

/-- The text after the blanks and comments that these switches skip. -/
def Flags.skip (f : Flags) (t : Text) : Text := if f.verbose then skipBlanks false t else t

/-- What can stand for one character or one place. -/
inductive Atom where
  /-- A character; `raw` tells that it was given as a byte. -/
  | char (c : Char) (raw : Bool)
  | set (s : CharSet)
  | anchor (a : Anchor)

/-- The character of a code point, if there is one. -/
def char? (n : Nat) : Option Char := if n.isValidChar then some (Char.ofNat n) else none

/-- `n` hexadecimal digits, with skipped blanks after each. -/
def hexDigits (f : Flags) : Nat → Text → Nat → Except Fault (Nat × Text)
  | 0, t, value => .ok (value, t)
  | n + 1, t, value =>
    match t with
    | [] => .error .badEscape
    | c :: t =>
      match Unicode.hexDigit? c with
      | some d => hexDigits f n (f.skip t) (16 * value + d)
      | none => .error .badEscape

/-- Hexadecimal digits up to a closing brace. -/
def bracedHex (f : Flags) : Nat → Text → Text → Except Fault (Nat × Text)
  | 0, _, _ => .error .badEscape
  | fuel + 1, t, digits =>
    match t with
    | [] => .error .badEscape
    | c :: t =>
      if c = '\x7d' then
        match Unicode.hexValue? digits.reverse with
        | some n => .ok (n, f.skip t)
        | none => .error .badEscape
      else if (Unicode.hexDigit? c).isSome then bracedHex f fuel (f.skip t) (c :: digits)
      else .error .badEscape

/-- A character given by its code point, after the letter that says how many
digits it has. -/
def hexEscape (f : Flags) (width : Nat) (t : Text) : Except Fault (Atom × Text) := do
  let t := f.skip t
  let (n, t) ← match t with
    | '\x7b' :: t => bracedHex f (t.length + 1) (f.skip t) []
    | _ => hexDigits f width t 0
  match char? n with
  | some c => .ok (.char c (n < 256), t)
  | none => .error .badEscape

/-- The name of a property up to a closing brace. -/
def bracedName (f : Flags) : Nat → Text → Text → Except Fault (Text × Text)
  | 0, _, _ => .error .badEscape
  | fuel + 1, t, name =>
    match t with
    | [] => .error .badEscape
    | c :: t => if c = '\x7d' then .ok (name.reverse, t) else bracedName f fuel (f.skip t) (c :: name)

/-- The set that the inside of a property escape stands for. -/
def propertySet (name : Text) : Except Fault CharSet :=
  let found : Option CharSet := match Text.breakAt? ['!', '='] name with
    | some (property, value) => (CharSet.valued? property value).map .compl
    | none =>
      match Text.breakAt? [':'] name <|> Text.breakAt? ['='] name with
      | some (property, value) => CharSet.valued? property value
      | none => CharSet.named? name
  match found with
  | some s => .ok s
  | none => .error .unknownProperty

/-- A property of characters, after the letter `p` or `P`. -/
def propertyEscape (f : Flags) (negated : Bool) (t : Text) : Except Fault (Atom × Text) := do
  let t := f.skip t
  let (name, t) ← match t with
    | [] => .error .badEscape
    | '\x7b' :: t => bracedName f (t.length + 1) (f.skip t) []
    | c :: t => if c = '\\' then .error .badEscape else .ok ([c], f.skip t)
  if !f.unicode then .error .notText
  else
    let s ← propertySet name
    let s := f.fold s
    .ok (.set (if negated then .compl s else s), t)

/-- The longest row of letters and hyphens, with skipped blanks after each. -/
def edgeName (f : Flags) : Nat → Text → Text → Text × Text
  | 0, t, name => (name.reverse, t)
  | fuel + 1, t, name =>
    match t with
    | [] => (name.reverse, [])
    | c :: rest =>
      if c.isAlpha || c = '-' then edgeName f fuel (f.skip rest) (c :: name) else (name.reverse, t)

/-- The edge of a word, after the letter `b`: a name in braces tells which. -/
def wordEdgeEscape (f : Flags) (t : Text) : Except Fault (Atom × Text) :=
  let w := f.wordSet
  match t with
  | '\x7b' :: inner =>
    match f.skip inner with
    | [] => .error .badEscape
    | c :: rest =>
      if c.isAlpha || c = '-' then
        match edgeName f (rest.length + 1) (c :: rest) [] with
        | (name, '\x7d' :: t) =>
          match String.ofList name with
          | "start" => .ok (.anchor (.wordStart w), t)
          | "end" => .ok (.anchor (.wordEnd w), t)
          | "start-half" => .ok (.anchor (.wordStartHalf w), t)
          | "end-half" => .ok (.anchor (.wordEndHalf w), t)
          | _ => .error .badEscape
        | _ => .error .badEscape
      else .ok (.anchor (.wordEdge w), t)
  | _ => .ok (.anchor (.wordEdge w), t)

/-- Whether a backslash before a character stands for the character itself. -/
def isQuotable (c : Char) : Bool :=
  isMeta c || (c.toNat < 128 && !c.isAlphanum && c != '<' && c != '>')

/-- What a backslash and the text after it stand for. -/
def escape (f : Flags) : Text → Except Fault (Atom × Text)
  | [] => .error .badEscape
  | c :: t =>
    if isQuotable c then .ok (.char c false, t)
    else
      match c with
      | 'x' => hexEscape f 2 t
      | 'u' => hexEscape f 4 t
      | 'U' => hexEscape f 8 t
      | 'p' => propertyEscape f false t
      | 'P' => propertyEscape f true t
      | 'd' | 's' | 'w' | 'D' | 'S' | 'W' => do .ok (.set (← f.letterClass c), t)
      | 'a' => .ok (.char '\x07' false, t)
      | 'f' => .ok (.char '\x0c' false, t)
      | 't' => .ok (.char '\t' false, t)
      | 'n' => .ok (.char '\n' false, t)
      | 'r' => .ok (.char '\r' false, t)
      | 'v' => .ok (.char '\x0b' false, t)
      | 'A' => .ok (.anchor .startText, t)
      | 'z' => .ok (.anchor .endText, t)
      | 'b' => wordEdgeEscape f t
      | 'B' => .ok (.anchor (.noWordEdge f.wordSet), t)
      | '<' => .ok (.anchor (.wordStart f.wordSet), t)
      | '>' => .ok (.anchor (.wordEnd f.wordSet), t)
      | _ => .error .badEscape

end Pattern
end DocScribe
