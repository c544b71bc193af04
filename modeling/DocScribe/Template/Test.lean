/-
The tests that templates put to values.
-/
import DocScribe.Template.Arguments
import DocScribe.Unicode.Category

namespace DocScribe
namespace Template

open Value

/-- The names of the filters. -/
def filterNames : List String :=
  ["safe", "escape", "e", "lower", "upper", "title", "capitalize", "replace", "length", "count", "dictsort",
    "items", "reverse", "trim", "join", "split", "lines", "default", "d", "round", "abs", "int", "float", "attr",
    "first", "last", "min", "max", "sort", "list", "string", "bool", "batch", "slice", "sum", "indent", "select",
    "reject", "selectattr", "rejectattr", "map", "groupby", "unique", "chain", "zip", "pprint"]

/-- The names of the tests. -/
def testNames : List String :=
  ["undefined", "defined", "none", "filter", "test", "safe", "escaped", "boolean", "odd", "even", "divisibleby",
    "number", "integer", "int", "float", "string", "sequence", "iterable", "mapping", "startingwith",
    "endingwith", "lower", "upper", "sameas", "eq", "equalto", "==", "ne", "!=", "lt", "lessthan", "<", "le",
    "<=", "gt", "greaterthan", ">", "ge", ">=", "in", "true", "false"]

/-- Whether every character of a text is in one of some tables. -/
def allIn (tables : List Unicode.Ranges) (t : Text) : Bool :=
  t.all fun c => tables.any fun table => table.holds c.toNat

/-- Whether two values are of one sort and equal. -/
def identical (a b : Value) : Bool :=
  rank a == rank b && equal a b &&
    match a, b with
    | int _, real _ | real _, int _ => false
    | _, _ => true

/-- Whether one number divides another. -/
def divides (d v : Value) : Bool :=
  match v.int?, d.int?, v.real?, d.real? with
  | some n, some m, _, _ => m ≠ 0 && n % m == 0
  | _, _, some x, some y => remainder x y == 0
  | _, _, _, _ => false

/-- The tests without an argument. -/
def plainTest? (name : String) (v : Value) : Option (Except Fault Bool) :=
  match name with
  | "defined" => some (.ok (match v with | undefined => false | _ => true))
  | "undefined" => some (.ok (match v with | undefined => true | _ => false))
  | "none" => some (.ok (match v with | .none => true | _ => false))
  | "filter" => some (do .ok (filterNames.contains (String.ofList (← asStr v))))
  | "test" => some (do .ok (testNames.contains (String.ofList (← asStr v))))
  | "safe" | "escaped" => some (.ok (match v with | markup _ => true | _ => false))
  | "boolean" => some (.ok (match v with | .bool _ => true | _ => false))
  | "true" => some (.ok (match v with | .bool true => true | _ => false))
  | "false" => some (.ok (match v with | .bool false => true | _ => false))
  | "number" => some (.ok (match v with | int _ | real _ => true | _ => false))
  | "integer" | "int" => some (.ok (match v with | int _ => true | _ => false))
  | "float" => some (.ok (match v with | real _ => true | _ => false))
  | "string" => some (.ok v.str?.isSome)
  | "sequence" => some (.ok (match v with | list _ | group .. => true | _ => false))
  | "mapping" => some (.ok (match v with | map _ => true | _ => false))
  | "iterable" => some (.ok v.items.isOk)
  | "odd" => some (.ok (((whole? v).map (· % 2 != 0)).getD false))
  | "even" => some (.ok (((whole? v).map (· % 2 == 0)).getD false))
  | "lower" => some (do .ok (allIn [Unicode.lowercaseLetter, Unicode.otherLowercase] (← asStr v)))
  | "upper" => some (do .ok (allIn [Unicode.uppercaseLetter, Unicode.otherUppercase] (← asStr v)))
  | _ => Option.none

/-- The tests against another value. -/
def binaryTest? (name : String) (v w : Value) : Option (Except Fault Bool) :=
  match name with
  | "divisibleby" => some (.ok (divides w v))
  | "startingwith" => some (do .ok (Text.startsWith (← asText v) (← asText w)))
  | "endingwith" => some (do .ok (Text.endsWith (← asText v) (← asText w)))
  | "sameas" => some (.ok (identical v w))
  | "eq" | "equalto" | "==" => some (.ok (equal v w))
  | "ne" | "!=" => some (.ok (!equal v w))
  | "lt" | "lessthan" | "<" => some (.ok (less v w))
  | "le" | "<=" => some (.ok (!less w v))
  | "gt" | "greaterthan" | ">" => some (.ok (less w v))
  | "ge" | ">=" => some (.ok (!less v w))
  | "in" => some (holds w v)
  | _ => Option.none

/-- The outcome of a test. -/
def applyTest (name : Text) (v : Value) (args : List Value) : Except Fault Bool :=
  let name' := String.ofList name
  let outcome := match args with
    | [] => plainTest? name' v
    | [w] => binaryTest? name' v w
    | _ => Option.none
  match outcome with
  | some outcome => outcome
  | Option.none =>
    if testNames.contains name' then .error (.unsuited "arguments of test") else .error (.unknown "test" name)

end Template
end DocScribe
