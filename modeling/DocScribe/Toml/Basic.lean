/-
TOML values and documents under construction.

A document grows key by key. A table remembers how it came to be: by a header
of its own, on the way to another header, or by a key with dots. That decides
what may still be added to it.
-/
import DocScribe.Text.Basic

namespace DocScribe
namespace Toml

/-- A TOML value. -/
inductive Value where
  | text (t : Text)
  | int (n : Int)
  | float
  | bool (b : Bool)
  | date
  | array (items : List Value)
  | table (entries : List (Text × Value))

/-- Why a text is not TOML. -/
inductive Fault where
  | unexpectedEnd
  | unexpected (c : Char)
  | badKey
  | badValue
  | badEscape
  | duplicateKey (key : Text)
  | tooDeep

/-- The wording of a fault. -/
def Fault.message : Fault → Text
  | unexpectedEnd => "unexpected end of input"
  | unexpected c => "unexpected character " ++ [c]
  | badKey => "invalid key"
  | badValue => "invalid value"
  | badEscape => "invalid escape"
  | duplicateKey key => "duplicate key " ++ key
  | tooDeep => "recursion limit exceeded"

/-- How a table came to be. -/
inductive Origin where
  /-- On the way to another header. -/
  | implied
  /-- By a header. -/
  | header
  /-- By a key with dots. -/
  | dotted
  deriving DecidableEq

/-- A part of a document under construction. -/
inductive Node where
  /-- A value that is complete. -/
  | leaf (v : Value)
  | table (origin : Origin) (entries : List (Text × Node))
  /-- Tables that headers in double brackets add one by one, the last first. -/
  | tables (last : List (Text × Node)) (earlier : List Node)

/-- The entries of a table under construction. -/
abbrev Entries := List (Text × Node)

namespace Entries

/-- An entry put in the place of the one with its key, or at the end. -/
def put (key : Text) (node : Node) : Entries → Entries
  | [] => [(key, node)]
  | (k, n) :: rest => if k = key then (k, node) :: rest else (k, n) :: put key node rest

end Entries

/-- A table changed at the end of a path of keys. On the way, tables that are
missing come into being with the given origin, and a table with a header may
not be entered by a key with dots. -/
def descend (origin : Origin) (change : Entries → Except Fault Entries) : List Text → Entries → Except Fault Entries
  | [], entries => change entries
  | key :: path, entries =>
    match entries.lookup key with
    | none => do .ok (entries.put key (.table origin (← descend origin change path [])))
    | some (.table o inner) =>
      if origin = .dotted && o = .header then .error (.duplicateKey key)
      else do .ok (entries.put key (.table o (← descend origin change path inner)))
    | some (.tables last earlier) =>
      if origin = .dotted then .error (.duplicateKey key)
      else do .ok (entries.put key (.tables (← descend origin change path last) earlier))
    | some (.leaf _) => .error (.duplicateKey key)

/-- The last key of a path, and those before it. -/
def splitPath (path : List Text) : Except Fault (List Text × Text) :=
  match path.reverse with
  | key :: before => .ok (before.reverse, key)
  | [] => .error .badKey

/-- A value given to a path of keys. -/
def setValue (path : List Text) (v : Value) (entries : Entries) : Except Fault Entries := do
  let (before, key) ← splitPath path
  descend .dotted (fun inner =>
    if (inner.lookup key).isSome then .error (.duplicateKey key) else .ok (inner ++ [(key, .leaf v)]))
    before entries

/-- A table opened by a header. -/
def openTable (path : List Text) (entries : Entries) : Except Fault Entries := do
  let (before, key) ← splitPath path
  descend .implied (fun inner =>
    match inner.lookup key with
    | none => .ok (inner ++ [(key, .table .header [])])
    | some (.table .implied es) => .ok (inner.put key (.table .header es))
    | some _ => .error (.duplicateKey key)) before entries

/-- One more table opened by a header in double brackets. -/
def openTables (path : List Text) (entries : Entries) : Except Fault Entries := do
  let (before, key) ← splitPath path
  descend .implied (fun inner =>
    match inner.lookup key with
    | none => .ok (inner ++ [(key, .tables [] [])])
    | some (.tables last earlier) =>
      .ok (inner.put key (.tables [] (.table .header last :: earlier)))
    | some _ => .error (.duplicateKey key)) before entries

/-- A value given to a path of keys inside the table that a header opened. -/
def setIn (table path : List Text) (v : Value) (entries : Entries) : Except Fault Entries :=
  descend .implied (setValue path v) table entries

mutual

/-- The value of a part that is complete. -/
def Node.value : Node → Value
  | .leaf v => v
  | .table _ entries => .table (entryValues entries)
  | .tables last earlier => .array ((Value.table (entryValues last) :: nodeValues earlier).reverse)

def entryValues : List (Text × Node) → List (Text × Value)
  | [] => []
  | (k, n) :: rest => (k, n.value) :: entryValues rest

def nodeValues : List Node → List Value
  | [] => []
  | n :: rest => n.value :: nodeValues rest

end

end Toml
end DocScribe
