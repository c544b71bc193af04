/-
Reading change sets from JSON.

A change set is an array of `path` and `additions`, and an addition a `hunk`
of two lines and the text of the `patch`. Each may be written as an object,
where unknown keys are passed over, or as an array of its fields in order.
-/
import DocScribe.Change.Basic
import DocScribe.Failure
import DocScribe.Json.Parser

namespace DocScribe
namespace ChangeSet

/-- Why a value is not a change set. -/
inductive Fault where
  | notJson (fault : JsonValue.Fault)
  | wrongType (expected : Text)
  | missing (field : Text)
  | twice (field : Text)

/-- The wording of a fault. -/
def Fault.message : Fault → Text
  | notJson fault => fault.message
  | wrongType expected => "invalid type, expected " ++ expected
  | missing field => "missing field " ++ field
  | twice field => "duplicate field " ++ field

/-- The fields of a record, in the order in which they are declared. -/
def fields (names : List Text) : JsonValue → Except Fault (List (Option JsonValue))
  | .object entries =>
    names.mapM fun n =>
      match entries.filter fun e => e.1 == n with
      | [] => .ok none
      | [e] => .ok (some e.2)
      | _ => .error (.twice n)
  | .array items =>
    if items.length ≤ names.length then
      .ok (items.map some ++ List.replicate (names.length - items.length) none)
    else .error (.wrongType "fewer elements")
  | _ => .error (.wrongType "record")

/-- A text. -/
def asText (field : Text) : Option JsonValue → Except Fault Text
  | some (.text t) => .ok t
  | some _ => .error (.wrongType "string")
  | none => .error (.missing field)

/-- A pair of lines. -/
def asLines : Option JsonValue → Except Fault (Nat × Nat)
  | some (.array [.nat first, .nat last]) => .ok (first, last)
  | some _ => .error (.wrongType "two lines")
  | none => .error (.missing "hunk")

/-- A changed region. -/
def asHunk (v : JsonValue) : Except Fault Hunk := do
  match ← fields ["hunk", "patch"] v with
  | [lines, text] =>
    let (first, last) ← asLines lines
    .ok ⟨first, last, ← asText "patch" text⟩
  | _ => .error (.wrongType "record")

/-- The changed regions of a file; none when they are not given. -/
def asHunks : Option JsonValue → Except Fault (List Hunk)
  | some (.array items) => items.mapM asHunk
  | some _ => .error (.wrongType "array")
  | none => .ok []

/-- The changes of a file. -/
def asFileChange (v : JsonValue) : Except Fault FileChange := do
  match ← fields ["path", "additions"] v with
  | [path, additions] => .ok ⟨⟨← asText "path" path⟩, ← asHunks additions⟩
  | _ => .error (.wrongType "record")

/-- A change set from a value. -/
def ofJson : JsonValue → Except Fault ChangeSet
  | .array items => do .ok ⟨← items.mapM asFileChange⟩
  | _ => .error (.wrongType "array")

/-- A change set from the text of a patch file. -/
def parse (path t : Text) : Except Failure ChangeSet :=
  let read : Except Fault ChangeSet :=
    match JsonValue.parse t with
    | .ok v => ofJson v
    | .error fault => .error (.notJson fault)
  match read with
  | .ok s => .ok s
  | .error fault => .error (.badPatch path fault.message)

end ChangeSet
end DocScribe
