/-
Reading TOML documents.
-/
import DocScribe.Toml.Scalar

namespace DocScribe
namespace Toml

/-- The text after a comment, which a line ending follows. -/
def skipComment : Text → Except Fault Text
  | '#' :: t =>
    let body := t.takeWhile fun c => c != '\n'
    let rest := t.dropWhile fun c => c != '\n'
    let body := if rest.isEmpty then body else (Text.dropTail? ['\r'] body).getD body
    if body.any isControl then .error .badValue else .ok rest
  | t => .ok t

/-- The text after blanks, comments and line endings. -/
def skipLines : Nat → Text → Except Fault Text
  | 0, t => .ok t
  | fuel + 1, t => do
    let t ← skipComment (skipBlanks t)
    match dropNewline? t with
    | some t => skipLines fuel t
    | none => .ok t

/-- The text after the rest of a line, in which nothing more may stand. -/
def endLine (t : Text) : Except Fault Text := do
  let t ← skipComment (skipBlanks t)
  match dropNewline? t with
  | some t => .ok t
  | none => if t.isEmpty then .ok [] else .error (unexpectedAt t)

/-- Whether a character can stand in a key without quotes. -/
def isKeyChar (c : Char) : Bool := c.isAlphanum || c == '_' || c == '-'

/-- One part of a key. -/
def keyPart (t : Text) : Except Fault (Text × Text) :=
  match t with
  | '"' :: t => basicString (t.length + 1) t
  | '\'' :: t => literalString t
  | t =>
    match t.takeWhile isKeyChar with
    | [] => .error .badKey
    | key => .ok (key, t.dropWhile isKeyChar)

/-- A key, in parts between dots, and the text after it and its blanks. -/
def key : Nat → Read (List Text)
  | 0, _ => .error .badKey
  | fuel + 1, t => do
    let (part, t) ← keyPart (skipBlanks t)
    match skipBlanks t with
    | '.' :: t =>
      let (parts, t) ← key fuel t
      .ok (part :: parts, t)
    | t => .ok ([part], t)

/-- A key and its value. -/
def keyValue (value : Read Value) (t : Text) : Except Fault ((List Text × Value) × Text) := do
  let (path, t) ← key (t.length + 1) t
  match t with
  | '=' :: t =>
    let (v, t) ← value (skipBlanks t)
    .ok ((path, v), t)
  | t => .error (unexpectedAt t)

/-- The items of an array, after its bracket or a comma. -/
def arrayItems (value : Read Value) : Nat → Read (List Value)
  | 0, _ => .error .unexpectedEnd
  | fuel + 1, t => do
    match ← skipLines (t.length + 1) t with
    | ']' :: t => .ok ([], t)
    | t =>
      let (v, t) ← value t
      match ← skipLines (t.length + 1) t with
      | ',' :: t =>
        let (vs, t) ← arrayItems value fuel t
        .ok (v :: vs, t)
      | ']' :: t => .ok ([v], t)
      | t => .error (unexpectedAt t)

/-- The entries of a table in braces, after its brace or a comma. -/
def inlineEntries (value : Read Value) : Nat → Entries → Read Entries
  | 0, _, _ => .error .unexpectedEnd
  | fuel + 1, entries, t => do
    match ← skipLines (t.length + 1) t with
    | '\x7d' :: t => .ok (entries, t)
    | t =>
      let ((path, v), t) ← keyValue value t
      let entries ← setValue path v entries
      match ← skipLines (t.length + 1) t with
      | ',' :: t => inlineEntries value fuel entries t
      | '\x7d' :: t => .ok (entries, t)
      | t => .error (unexpectedAt t)

/-- A value; `depth` bounds how deep it nests. -/
def value : Nat → Read Value
  | 0, _ => .error .tooDeep
  | depth + 1, t =>
    match t with
    | '"' :: t => do
      let (s, t) ← string '"' t
      .ok (.text s, t)
    | '\'' :: t => do
      let (s, t) ← string '\'' t
      .ok (.text s, t)
    | '[' :: t => do
      let (items, t) ← arrayItems (value depth) (t.length + 1) t
      .ok (.array items, t)
    | '\x7b' :: t => do
      let (entries, t) ← inlineEntries (value depth) (t.length + 1) [] t
      .ok (.table (entryValues entries), t)
    | t => scalar t

/-- The greatest depth of nested values. -/
def maxDepth : Nat := 80

/-- The path of a header up to its closing brackets. -/
def headerPath (close : Text) (t : Text) : Except Fault (List Text × Text) := do
  let (path, t) ← key (t.length + 1) t
  match Text.dropLead? close t with
  | some t => .ok (path, t)
  | none => .error (unexpectedAt t)

/-- The rest of a document below the header of a table. -/
def readLines : Nat → List Text → Entries → Text → Except Fault Entries
  | 0, _, entries, _ => .ok entries
  | fuel + 1, table, entries, t => do
    match ← skipLines (t.length + 1) t with
    | [] => .ok entries
    | '[' :: '[' :: t =>
      let (path, t) ← headerPath "]]" t
      let entries ← openTables path entries
      readLines fuel path entries (← endLine t)
    | '[' :: t =>
      let (path, t) ← headerPath "]" t
      let entries ← openTable path entries
      readLines fuel path entries (← endLine t)
    | t =>
      let ((path, v), t) ← keyValue (value maxDepth) t
      let entries ← setIn table path v entries
      readLines fuel table entries (← endLine t)

/-- The entries of a document. -/
def parse (t : Text) : Except Fault (List (Text × Value)) := do
  let t := match t with
    | c :: rest => if c.toNat = 0xFEFF then rest else t
    | [] => []
  .ok (entryValues (← readLines (t.length + 1) [] [] t))

end Toml
end DocScribe
