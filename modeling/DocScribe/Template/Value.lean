/-
The values that templates compute with.

Namespaces, loops and the variables that macros see can change while a
template is rendered. A value only refers to such a thing by number; what it
stands for at the moment is kept by the run of the template.
-/
import DocScribe.Decimal.Shortest
import DocScribe.Sorting
import DocScribe.Template.Expr
import DocScribe.Template.Token
import DocScribe.Text.Lines
import DocScribe.Text.Quoted

namespace DocScribe
namespace Template

/-- A value. -/
inductive Value where
  | undefined
  | none
  | bool (b : Bool)
  | int (n : Int)
  | real (x : Float)
  | str (t : Text)
  /-- A text that is safe in markup as it stands. -/
  | markup (t : Text)
  | list (items : List Value)
  /-- Items that come one by one; whether their number is known before. -/
  | stream (items : List Value) (counted : Bool)
  /-- Entries in the order of their keys. -/
  | map (entries : List (Value × Value))
  /-- Items that have a value in common. -/
  | group (key : Value) (items : List Value)
  /-- The named arguments of a call, taken together. -/
  | named (entries : List (Value × Value))
  /-- A function that is always there. -/
  | routine (name : Text)
  /-- A macro; whether its body asks for a caller, and the number of the
  variables that it sees. -/
  | defined (name : Text) (params : List Param) (body : List Stmt) (callsBack : Bool) (scope : Nat)
  | space (number : Nat)
  | loop (number : Nat)
  /-- Something that can only be shown. -/
  | object (shown : Text)

namespace Value

/-- The text of an integer. -/
def intText (n : Int) : Text :=
  match n with
  | .ofNat n => Text.ofNat n
  | .negSucc n => '-' :: Text.ofNat (n + 1)

mutual

/-- A value as it is shown inside another. -/
def inner : Value → Text
  | undefined => "undefined"
  | none => "None"
  | bool true => "True"
  | bool false => "False"
  | int n => intText n
  | real x => Decimal.text x
  | str t | markup t => t.quoted
  | list items | stream items _ => '[' :: Text.join ", " (innerList items) ++ [']']
  | map entries | named entries => '\x7b' :: Text.join ", " (innerEntries entries) ++ ['\x7d']
  | group key items => '[' :: inner key ++ ", [" ++ Text.join ", " (innerList items) ++ "]]"
  | routine name => name
  | defined name .. => "<macro " ++ name ++ ">"
  | space _ | loop _ => []
  | object shown => shown

def innerList : List Value → List Text
  | [] => []
  | v :: vs => inner v :: innerList vs

def innerEntries : List (Value × Value) → List Text
  | [] => []
  | (k, v) :: es => (inner k ++ [':', ' '] ++ inner v) :: innerEntries es

end

/-- A value as it is shown. -/
def text : Value → Text
  | undefined => []
  | str t | markup t => t
  | v => inner v

/-- A text with four spaces before each of its lines. -/
def shifted (t : Text) : Text := Text.joinLines ((Text.segments t).map fun line => "    ".toList ++ line)

/-- Parts between brackets, each on lines of its own. -/
def spread (opening closing : Char) (parts : List Text) : Text :=
  if parts.isEmpty then [opening, closing]
  else opening :: '\n' :: (parts.flatMap fun p => shifted p ++ [',', '\n']) ++ [closing]

mutual

/-- A value as it is shown over several lines. -/
def pretty : Value → Text
  | list items | stream items _ => spread '[' ']' (prettyList items)
  | group key items => spread '[' ']' [pretty key, spread '[' ']' (prettyList items)]
  | map entries | named entries => spread '\x7b' '\x7d' (prettyEntries entries)
  | v => inner v

def prettyList : List Value → List Text
  | [] => []
  | v :: vs => pretty v :: prettyList vs

def prettyEntries : List (Value × Value) → List Text
  | [] => []
  | (k, v) :: es => (pretty k ++ [':', ' '] ++ pretty v) :: prettyEntries es

end

/-- Whether a value counts as true. -/
def isTrue : Value → Bool
  | undefined | none => false
  | bool b => b
  | int n => n ≠ 0
  | real x => x != 0
  | str t | markup t => !t.isEmpty
  | list items => !items.isEmpty
  | stream items counted => !counted || !items.isEmpty
  | map entries | named entries => !entries.isEmpty
  | _ => true

/-- The text of a value that is one. -/
def str? : Value → Option Text
  | str t | markup t => some t
  | _ => Option.none

/-- The items of a value that is a row of them. -/
def row? : Value → Option (List Value)
  | list items | stream items _ => some items
  | group key items => some [key, list items]
  | _ => Option.none

/-- The integer of a value that stands for one. -/
def int? : Value → Option Int
  | int n => some n
  | bool b => some (if b then 1 else 0)
  | _ => Option.none

/-- The number of a value that stands for one. -/
def real? : Value → Option Float
  | real x => some x
  | v => v.int?.map Float.ofInt

mutual

/-- Whether two values are equal. -/
def equal : Value → Value → Bool
  | undefined, undefined | none, none => true
  | str a, str b | str a, markup b | markup a, str b | markup a, markup b => a == b
  | list as, list bs | list as, stream bs _ | stream as _, list bs | stream as _, stream bs _ => equalLists as bs
  | group k as, group l bs => equal k l && equalLists as bs
  | map as, map bs => equalEntries as bs
  | real a, b => ((real? b).map (a == ·)).getD false
  | a, real b => ((real? a).map (· == b)).getD false
  | a, b =>
    match int? a, int? b with
    | some m, some n => m == n
    | _, _ => false

def equalLists : List Value → List Value → Bool
  | [], [] => true
  | a :: as, b :: bs => equal a b && equalLists as bs
  | _, _ => false

def equalEntries : List (Value × Value) → List (Value × Value) → Bool
  | [], [] => true
  | (k, a) :: as, (l, b) :: bs => equal k l && equal a b && equalEntries as bs
  | _, _ => false

end

/-- The rank of the sort of a value among the sorts. -/
def rank : Value → Nat
  | undefined => 0
  | none => 1
  | bool _ => 2
  | int _ | real _ => 3
  | str _ | markup _ => 4
  | list _ | group .. => 5
  | map _ | named _ | space _ => 6
  | stream .. => 7
  | _ => 8

mutual

/-- Whether one value comes before another. -/
def less : Value → Value → Bool
  | str a, str b | str a, markup b | markup a, str b | markup a, markup b => Text.lt a b
  | list as, list bs | list as, stream bs _ | stream as _, list bs | stream as _, stream bs _ => lessLists as bs
  | a, b =>
    match int? a, int? b, real? a, real? b with
    | some m, some n, _, _ => m < n
    | _, _, some x, some y => x < y
    | _, _, _, _ => rank a < rank b

def lessLists : List Value → List Value → Bool
  | [], _ :: _ => true
  | a :: as, b :: bs => less a b || (equal a b && lessLists as bs)
  | _, [] => false

end

/-- Entries in the order of their keys, the latest of equal keys only. -/
def mapOf (entries : List (Value × Value)) : Value :=
  map (sorted (fun a b => !less b.1 a.1)
    (entries.foldl (fun kept e => kept.filter (fun k => !equal k.1 e.1) ++ [e]) []))

/-- The value under a key. -/
def lookup (key : Value) (entries : List (Value × Value)) : Option Value :=
  (entries.find? fun e => equal e.1 key).map (·.2)

/-- An integer, if it is not too large. -/
def checked (n : Int) : Except Fault Value :=
  if -(1 <<< 127 : Nat) ≤ n ∧ n < (1 <<< 127 : Nat) then .ok (int n) else .error .outOfRange

/-- Two numbers combined, as integers where both are. -/
def arith (use : Text) (f : Int → Int → Except Fault Value) (g : Float → Float → Float) (a b : Value) :
    Except Fault Value :=
  match a.int?, b.int?, a.real?, b.real? with
  | some m, some n, _, _ => f m n
  | _, _, some x, some y => .ok (real (g x y))
  | _, _, _, _ => .error (.unsuited use)

/-- A number without its fraction. -/
def truncated (x : Float) : Float := if x < 0 then x.ceil else x.floor

/-- What is left of a number after whole parts of another, with the sign of
the first. -/
def remainder (x y : Float) : Float := x - y * truncated (x / y)

/-- The whole quotient whose remainder is not negative. -/
def quotient (x y : Float) : Float :=
  let q := truncated (x / y)
  if remainder x y < 0 then (if 0 < y then q - 1 else q + 1) else q

/-- Whether a container holds a value. -/
def holds (container v : Value) : Except Fault Bool :=
  match container with
  | undefined => .ok false
  | str t | markup t => .ok (Text.holds v.text t)
  | map entries => .ok (lookup v entries).isSome
  | routine _ | defined .. | object _ => .ok false
  | container =>
    match container.row? with
    | some items => .ok (items.any (equal v))
    | Option.none => .error (.unsuited "in")

/-- A row of items, or a text, taken several times. -/
def repeated (v times : Value) : Except Fault Value :=
  match times.int? with
  | some n =>
    if n < 0 then .error (.unsuited "*")
    else
      match v.str?, v.row? with
      | some t, _ => .ok (str (List.replicate n.toNat t).flatten)
      | _, some items => .ok (stream (List.replicate n.toNat items).flatten true)
      | _, _ => .error (.unsuited "*")
  | Option.none => .error (.unsuited "*")

/-- Whether a value is a text or a row of items. -/
def isRepeatable (v : Value) : Bool := v.str?.isSome || v.row?.isSome

/-- The value of an operation. -/
def binary (op : BinaryOp) (a b : Value) : Except Fault Value :=
  match op with
  | .add =>
    match a.str?, b.str?, a.row?, b.row? with
    | some s, some t, _, _ => .ok (str (s ++ t))
    | _, _, some s, some t => .ok (stream (s ++ t) true)
    | _, _, _, _ => arith "+" (fun m n => checked (m + n)) (· + ·) a b
  | .sub => arith "-" (fun m n => checked (m - n)) (· - ·) a b
  | .mul =>
    if a.isRepeatable then repeated a b
    else if b.isRepeatable then repeated b a
    else arith "*" (fun m n => checked (m * n)) (· * ·) a b
  | .div =>
    match a.real?, b.real? with
    | some x, some y => .ok (real (x / y))
    | _, _ => .error (.unsuited "/")
  | .floorDiv =>
    arith "//" (fun m n => if n = 0 then .error (.unsuited "//") else checked (Int.ediv m n)) quotient a b
  | .rem =>
    arith "%" (fun m n => if n = 0 then .error (.unsuited "%") else checked (Int.emod m n)) remainder a b
  | .pow =>
    arith "**" (fun m n =>
      if n < 0 || (n > 1000 && 1 < m.natAbs) then .error (.unsuited "**")
      else checked (Int.pow m n.toNat)) Float.pow a b
  | .concat => .ok (str (a.text ++ b.text))
  | .eq => .ok (bool (equal a b))
  | .ne => .ok (bool (!equal a b))
  | .lt => .ok (bool (less a b))
  | .le => .ok (bool (!less b a))
  | .gt => .ok (bool (less b a))
  | .ge => .ok (bool (!less a b))
  | .within => do .ok (bool (← holds b a))

/-- The element at an index; a negative index counts from the end. -/
def pick {α : Type} (items : List α) (i : Int) : Option α :=
  if 0 ≤ i then items[i.toNat]?
  else if (-i).toNat ≤ items.length then items[items.length - (-i).toNat]?
  else Option.none

/-- The element of a value at an index or under a key. -/
def element (v index : Value) : Except Fault Value :=
  match v, index with
  | undefined, _ => .error .undefinedValue
  | map entries, k | named entries, k => .ok ((lookup k entries).getD undefined)
  | group key items, str t =>
    .ok (if t = "grouper".toList then key else if t = "list".toList then list items else undefined)
  | defined name params _ callsBack _, str t =>
    .ok (if t = "name".toList then str name
      else if t = "arguments".toList then list (params.map fun p => str p.1)
      else if t = "caller".toList then bool callsBack
      else undefined)
  | stream items counted, int i => .ok (if i < 0 && !counted then undefined else (pick items i).getD undefined)
  | v, int i =>
    match v.str?, v.row? with
    | some t, _ => .ok (((pick t i).map fun c => str [c]).getD undefined)
    | _, some items => .ok ((pick items i).getD undefined)
    | _, _ => .ok undefined
  | _, _ => .ok undefined

/-- A bound of a slice brought into the range of a list. -/
def clamp (length : Nat) (low high : Int) (bound : Int) : Int :=
  let b := if bound < 0 then bound + length else bound
  max low (min high b)

/-- The elements of a list between two bounds, every `step`-th. -/
def slice {α : Type} (items : List α) (start stop : Option Int) (step : Int) : List α :=
  let n := items.length
  let (low, high) : Int × Int := if 0 < step then (0, n) else (-1, n - 1)
  let first := (start.map (clamp n low high)).getD (if 0 < step then low else high)
  let last := (stop.map (clamp n low high)).getD (if 0 < step then high else low)
  (List.range n).filterMap fun k : Nat =>
    let i := first + step * (k : Int)
    if (if 0 < step then i < last else last < i) then items[i.toNat]? else Option.none

/-- The elements of a value between two bounds. -/
def sliced (v : Value) (start stop : Option Int) (step : Int) : Except Fault Value :=
  if step = 0 then .error (.unsuited "slice")
  else
    match v with
    | undefined | none => .ok (list [])
    | v =>
      match v.str?, v.row? with
      | some t, _ => .ok (str (slice t start stop step))
      | _, some items => .ok (stream (slice items start stop step) true)
      | _, _ => .error (.unsuited "slice")

/-- The items that a loop over a value runs through. -/
def items : Value → Except Fault (List Value)
  | undefined | none => .ok []
  | map entries | named entries => .ok (entries.map (·.1))
  | v =>
    match v.str?, v.row? with
    | some t, _ => .ok (t.map fun c => str [c])
    | _, some items => .ok items
    | _, _ => .error (.unsuited "iteration")

/-- Whether the number of items of a value is known before they are gone
through. -/
def isCounted : Value → Bool
  | stream _ counted => counted
  | _ => true

/-- The floating-point number next to `digits * 10 ^ scale`. -/
def ofDecimal (digits : Nat) (scale : Int) : Float :=
  if 0 ≤ scale then Float.ofScientific digits false (min scale.toNat 1000)
  else Float.ofScientific digits true (min (-scale).toNat 100000)

/-- The value of a literal. -/
def ofLiteral : Literal → Value
  | .none => none
  | .bool b => bool b
  | .int n => int n
  | .real digits scale => real (ofDecimal digits scale)
  | .str t => str t

end Value
end Template
end DocScribe
