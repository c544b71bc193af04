/-
The arguments of calls in templates, and what filters and tests make of them.

A filter takes its arguments by position. Named arguments come last and count
as one argument, unless the filter looks for names.
-/
import DocScribe.Template.Value

namespace DocScribe
namespace Template

open Value

/-- The arguments of a call: those without a name, then those with one. -/
structure Actuals where
  plain : List Value := []
  named : List (Text × Value) := []

namespace Actuals

/-- Arguments that have been evaluated, apart; the latest under a name counts. -/
def ofList (args : List (Option Text × Value)) : Actuals :=
  ⟨args.filterMap fun a => if a.1.isNone then some a.2 else Option.none,
    (args.filterMap fun a => a.1.map fun n => (n, a.2)).foldl
      (fun kept e => kept.filter (fun k => k.1 != e.1) ++ [e]) []⟩

/-- The named arguments taken together. -/
def bundle (a : Actuals) : List (Value × Value) :=
  match mapOf (a.named.map fun n => (str n.1, n.2)) with
  | map entries => entries
  | _ => []

/-- The arguments by position, at most `limit`. -/
def positional (a : Actuals) (limit : Nat) : Except Fault (List Value) :=
  let all := if a.named.isEmpty then a.plain else a.plain ++ [Value.named a.bundle]
  if limit < all.length then .error (.unsuited "too many arguments") else .ok all

/-- Checks that no other names are used than those given. -/
def onlyNames (a : Actuals) (names : List Text) : Except Fault Unit :=
  if a.named.all fun n => names.contains n.1 then .ok () else .error (.unsuited "unknown argument")

/-- The arguments without a name, at most `limit`, where only the given names
are used beside them. -/
def plainWith (a : Actuals) (limit : Nat) (names : List Text) : Except Fault (List Value) := do
  a.onlyNames names
  if limit < a.plain.length then .error (.unsuited "too many arguments") else .ok a.plain

/-- The argument under a name. -/
def get? (a : Actuals) (name : Text) : Option Value := a.named.lookup name

end Actuals

/-- An argument read where it is given and not empty. -/
def optional {α : Type} (read : Value → Except Fault α) : Option Value → Except Fault (Option α)
  | Option.none | some undefined | some .none => .ok Option.none
  | some v => do .ok (some (← read v))

/-- An argument that must be given. -/
def required {α : Type} (read : Value → Except Fault α) : Option Value → Except Fault α
  | Option.none => .error (.unsuited "missing argument")
  | some v => read v

def asValue (v : Value) : Except Fault Value := .ok v

/-- Any value as a text, named arguments apart. -/
def asText : Value → Except Fault Text
  | Value.named _ => .error (.unsuited "text")
  | v => .ok v.text

/-- A text. -/
def asStr (v : Value) : Except Fault Text :=
  match v.str? with
  | some t => .ok t
  | Option.none => .error (.unsuited "text")

def asBool : Value → Except Fault Bool
  | .bool b => .ok b
  | _ => .error (.unsuited "boolean")

/-- The integer of a value that has no fraction. -/
def whole? : Value → Option Int
  | real x => if x == truncated x && x.abs < 9.0e18 then some x.toInt64.toInt else Option.none
  | v => v.int?

def asInt (v : Value) : Except Fault Int :=
  match whole? v with
  | some n => .ok n
  | Option.none => .error (.unsuited "integer")

/-- A count. -/
def asNat (v : Value) : Except Fault Nat := do
  let n ← asInt v
  if n < 0 then .error (.unsuited "count") else .ok n.toNat

/-- Whether something is switched on by a name. -/
def Actuals.switch (a : Actuals) (name : Text) : Except Fault Bool := do
  .ok ((← optional asBool (a.get? name)).getD false)

/-- The attribute of a value under a path of names between dots. -/
def attributePath (v : Value) (path : Text) : Except Fault Value :=
  (Text.pieces (· == '.') path).foldlM (fun v name =>
    match Text.digitsValue? name with
    | some i => element v (int i)
    | Option.none => element v (str name)) v

end Template
end DocScribe
