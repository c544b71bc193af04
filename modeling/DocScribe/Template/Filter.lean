/-
The filters of templates.
-/
import DocScribe.Template.Test
import DocScribe.Unicode.CaseMap

namespace DocScribe
namespace Template

open Value

/-- Whether a character ends a word in titles. -/
def endsWord (c : Char) : Bool :=
  isBlank c || (c.toNat < 128 && 32 < c.toNat && c.toNat < 127 && !c.isAlphanum)

/-- A text with the first letter of every word capital and the others small. -/
def titled (start : Bool) : Text → Text
  | [] => []
  | c :: t =>
    if endsWord c then c :: titled true t
    else (if start then Unicode.capital c else Unicode.small c) ++ titled false t

/-- A text with its first letter capital and the others small. -/
def capitalized : Text → Text
  | [] => []
  | c :: t => Unicode.capital c ++ Text.toSmall t

/-- A text without a line ending at its end. -/
def dropLineEnd (t : Text) : Text :=
  let t := (Text.dropTail? ['\n'] t).getD t
  (Text.dropTail? ['\r'] t).getD t

/-- A text with spaces before its lines. -/
def indented (width : Nat) (first blank : Bool) (t : Text) : Text :=
  let pad (line : Text) : Text :=
    if line.isEmpty && !blank then [] else List.replicate width ' ' ++ line
  match Text.segments (dropLineEnd t) with
  | [] => []
  | line :: rest =>
    dropLineEnd (((if first then pad line else line) :: rest.map pad).flatMap (· ++ ['\n']))

/-- Every occurrence of a text replaced; the empty text occurs everywhere. -/
def replaced (mark new t : Text) : Text :=
  if mark.isEmpty then new ++ t.flatMap fun c => c :: new else Text.replace mark new t

/-- The pieces of a text between the occurrences of a mark; the empty mark
occurs everywhere. -/
def piecesOf (mark t : Text) : List Text :=
  if mark.isEmpty then [[]] ++ (t.map fun c => [c]) ++ [[]] else Text.splitOn mark t

/-- All pieces from some place on put together again. -/
def firstPieces (mark : Text) (n : Nat) (pieces : List Text) : List Text :=
  if n < pieces.length then pieces.take (n - 1) ++ [Text.join mark (pieces.drop (n - 1))] else pieces

/-- The words of a text, at most `n`; the last takes what is left. -/
def firstWords : Nat → Text → List Text
  | 0, _ => []
  | n + 1, t =>
    let t := t.trimStart
    if t.isEmpty then []
    else if n = 0 then [t]
    else (t.takeWhile fun c => !isBlank c) :: firstWords n (t.dropWhile fun c => !isBlank c)

/-- A text made safe for markup. -/
def escaped (t : Text) : Text :=
  t.flatMap fun c =>
    match c with
    | '<' => "&lt;"
    | '>' => "&gt;"
    | '&' => "&amp;"
    | '"' => "&quot;"
    | '\'' => "&#x27;"
    | '/' => "&#x2f;"
    | c => [c]

/-- A value as it is shown in markup. -/
def markupText : Value → Text
  | markup t => t
  | undefined => []
  | .none => "None"
  | .bool b => (Value.bool b).text
  | int n => intText n
  | real x => Decimal.text x
  | v => escaped v.text

/-- The length of a value. -/
def lengthOf : Value → Except Fault Nat
  | stream items true => .ok items.length
  | stream _ false => .error (.unsuited "length")
  | map entries => .ok entries.length
  | v =>
    match v.str?, v.row? with
    | some t, _ => .ok t.length
    | _, some items => .ok items.length
    | _, _ => .error (.unsuited "length")

/-- Texts with a mark between them; nothing stands before the first that is not
empty. -/
def joined (mark : Text) (parts : List Text) : Text :=
  parts.foldl (fun t p => if t.isEmpty then p else t ++ mark ++ p) []

/-- A text as it is compared where case does not matter. -/
def caseless (exact : Bool) (v : Value) : Value :=
  match v.str? with
  | some t => if exact then str t else str (Text.toSmall t)
  | Option.none => v

/-- Items in the order of their keys. -/
def inOrder (exact : Bool) (keyed : List (Value × Value)) : List (Value × Value) :=
  sorted (fun a b => !less (caseless exact b.1) (caseless exact a.1)) keyed

/-- Items with the keys that an attribute gives them, or with themselves. -/
def keyedBy (path : Option Text) (fallback : Value) (items : List Value) :
    Except Fault (List (Value × Value)) :=
  items.mapM fun item =>
    match path with
    | Option.none => .ok (item, item)
    | some path => do
      match ← attributePath item path with
      | undefined => .ok (fallback, item)
      | key => .ok (key, item)

/-- Items whose keys occur earlier left out. -/
def distinct (exact : Bool) : List Value → List (Value × Value) → List Value
  | _, [] => []
  | seen, (key, item) :: rest =>
    let key := caseless exact key
    if seen.any (equal key) then distinct exact seen rest else item :: distinct exact (key :: seen) rest

/-- Neighbours with equal keys put into groups. -/
def grouped (exact : Bool) : List (Value × Value) → List (Value × List Value)
  | [] => []
  | (key, item) :: rest =>
    match grouped exact rest with
    | [] => [(key, [item])]
    | (next, items) :: groups =>
      if equal (caseless exact key) (caseless exact next) then (next, item :: items) :: groups
      else (key, [item]) :: (next, items) :: groups

/-- A list cut into rows of `n`, the last filled up. -/
def batches (fill : Option Value) : Nat → Nat → List Value → List Value
  | 0, _, _ => []
  | fuel + 1, n, items =>
    if items.isEmpty then []
    else
      let row := items.take n
      let row := match fill with
        | some v => row ++ List.replicate (n - row.length) v
        | Option.none => row
      list row :: batches fill fuel n (items.drop n)

/-- A list cut into `n` rows whose lengths differ by one at most; the shorter
ones are filled up. -/
def slices (fill : Option Value) (n : Nat) (items : List Value) : List Value :=
  let least := items.length / n
  let longer := items.length % n
  (List.range n).map fun k =>
    let start := k * least + min k longer
    let row := (items.drop start).take (if k < longer then least + 1 else least)
    match fill with
    | some v => list (if longer ≤ k then row ++ [v] else row)
    | Option.none => list row

/-- The items that stand at the same place in several lists, as long as none of
the lists ends. -/
def zipped : Nat → List (List Value) → List Value
  | 0, _ => []
  | fuel + 1, rows =>
    if rows.any List.isEmpty then [] else list (rows.filterMap List.head?) :: zipped fuel (rows.map List.tail)

/-- The integer that a text writes. -/
def parseInt? (t : Text) : Option Int :=
  match t with
  | '-' :: digits => (Text.digitsValue? digits).map fun n => -(n : Int)
  | '+' :: digits | digits => (Text.digitsValue? digits).map fun n => (n : Int)

/-- The number that a text writes. -/
def parseReal? (t : Text) : Option Float :=
  let (negative, digits) := match t with
    | '-' :: digits => (true, digits)
    | '+' :: digits => (false, digits)
    | digits => (false, digits)
  match realToken? digits with
  | some (.real digits scale) => some (if negative then -(ofDecimal digits scale) else ofDecimal digits scale)
  | _ => Option.none

/-- A number without its fraction, as far as integers go. -/
def wholePart (x : Float) : Int :=
  let bound : Nat := 1 <<< 127
  if x.isNaN then 0
  else
    let b := Decimal.Binary.ofBits x.toBits
    let size := if x.isInf then bound else b.significand <<< b.exponent.toNat >>> (-b.exponent).toNat
    if x < 0 then -(min size bound : Nat) else (min size (bound - 1) : Nat)

/-- The filters on texts. -/
def textFilter? (name : String) (v : Value) (a : Actuals) : Option (Except Fault Value) :=
  match name with
  | "upper" => some do
    let _ ← a.positional 0
    .ok (str (Text.toCapitals v.text))
  | "lower" => some do
    let _ ← a.positional 0
    .ok (str (Text.toSmall v.text))
  | "title" => some do
    let _ ← a.positional 0
    .ok (str (titled true v.text))
  | "capitalize" => some do
    let _ ← a.positional 0
    .ok (str (capitalized v.text))
  | "trim" => some do
    let args ← a.positional 1
    match ← optional asText args[0]? with
    | some cs => .ok (str (Text.trimBy (fun c => cs.contains c) v.text))
    | Option.none => .ok (str (Text.trim v.text))
  | "replace" => some do
    let args ← a.positional 2
    let old ← required asText args[0]?
    let new ← required asText args[1]?
    .ok (str (replaced old new v.text))
  | "indent" => some do
    let args ← a.positional 3
    let width ← required asNat args[0]?
    let first := (← optional asBool args[1]?).getD false
    let blank := (← optional asBool args[2]?).getD false
    .ok (str (indented width first blank v.text))
  | "lines" => some do
    let _ ← a.positional 0
    .ok (list ((Text.lines (← asStr v)).map str))
  | "split" => some do
    let args ← a.positional 2
    let t ← asStr v
    let mark ← optional asStr args[0]?
    let most := (← optional asInt args[1]?).filter (0 ≤ ·)
    let pieces := match mark, most with
      | Option.none, Option.none => Text.words t
      | Option.none, some n => firstWords (n.toNat + 1) t
      | some mark, Option.none => piecesOf mark t
      | some mark, some n => firstPieces mark (n.toNat + 1) (piecesOf mark t)
    .ok (stream (pieces.map str) false)
  | "string" => some do
    let _ ← a.positional 0
    .ok (if v.str?.isSome then v else str v.text)
  | "safe" => some do
    let _ ← a.positional 0
    .ok (markup v.text)
  | "escape" | "e" => some do
    let _ ← a.positional 0
    .ok (markup (markupText v))
  | "pprint" => some do
    let _ ← a.positional 0
    .ok (str v.pretty)
  | _ => Option.none

/-- The filters on numbers. -/
def numberFilter? (name : String) (v : Value) (a : Actuals) : Option (Except Fault Value) :=
  match name with
  | "int" => some do
    let _ ← a.positional 0
    match v with
    | undefined | .none => .ok (int 0)
    | real x => .ok (int (wholePart x))
    | v =>
      match v.int?, v.str? with
      | some n, _ => .ok (int n)
      | _, some t =>
        match parseInt? t, parseReal? t with
        | some n, _ => checked n
        | _, some x => .ok (int (wholePart x))
        | _, _ => .error (.unsuited "int")
      | _, _ => .error (.unsuited "int")
  | "float" => some do
    let _ ← a.positional 0
    match v with
    | undefined | .none => .ok (real 0)
    | v =>
      match v.real?, v.str?.bind parseReal? with
      | some x, _ | _, some x => .ok (real x)
      | _, _ => .error (.unsuited "float")
  | "round" => some do
    let args ← a.positional 1
    let places := (← optional asInt args[0]?).getD 0
    match v with
    | int n => .ok (int n)
    | real x =>
      let power := Float.pow 10 (Float.ofInt places)
      .ok (real ((power * x).round / power))
    | _ => .error (.unsuited "round")
  | "abs" => some do
    let _ ← a.positional 0
    match v with
    | int n => .ok (int n.natAbs)
    | real x => .ok (real x.abs)
    | _ => .error (.unsuited "abs")
  | "bool" => some do
    let _ ← a.positional 0
    .ok (.bool v.isTrue)
  | "sum" => some do
    let _ ← a.positional 0
    (← v.items).foldlM (fun total x =>
      match x with
      | undefined => .ok total
      | int _ | real _ => binary .add total x
      | _ => .error (.unsuited "sum")) (int 0)
  | _ => Option.none

/-- The filters on rows of items and on maps. -/
def rowFilter? (name : String) (v : Value) (a : Actuals) : Option (Except Fault Value) :=
  match name with
  | "length" | "count" => some do
    let _ ← a.positional 0
    .ok (int (← lengthOf v))
  | "default" | "d" => some do
    let args ← a.positional 2
    let other := (← optional asValue args[0]?).getD (str [])
    let lax := (← optional asBool args[1]?).getD false
    match v with
    | undefined => .ok other
    | v => .ok (if lax && !v.isTrue then other else v)
  | "join" => some do
    let args ← a.positional 1
    let mark := (← optional asText args[0]?).getD []
    .ok (str (joined mark ((← v.items).map Value.text)))
  | "first" => some do
    let _ ← a.positional 0
    match v with
    | undefined | .none => .error (.unsuited "first")
    | v => do .ok ((← v.items).head?.getD undefined)
  | "last" => some do
    let _ ← a.positional 0
    match v with
    | undefined | .none | map _ => .error (.unsuited "last")
    | v => do .ok ((← v.items).getLast?.getD undefined)
  | "reverse" => some do
    let _ ← a.positional 0
    match v with
    | undefined | .none => .ok v
    | v =>
      match v.str? with
      | some t => .ok (str t.reverse)
      | Option.none => do .ok (stream (← v.items).reverse true)
  | "list" => some do
    let _ ← a.positional 0
    .ok (list (← v.items))
  | "min" => some do
    let _ ← a.positional 0
    .ok (((← v.items).foldl (fun best x => match best with
      | Option.none => some x
      | some b => some (if less x b then x else b)) Option.none).getD undefined)
  | "max" => some do
    let _ ← a.positional 0
    .ok (((← v.items).foldl (fun best x => match best with
      | Option.none => some x
      | some b => some (if less x b then b else x)) Option.none).getD undefined)
  | "unique" => some do
    let _ ← a.plainWith 0 ["attribute", "case_sensitive"]
    let keyed ← keyedBy (← optional asStr (a.get? "attribute")) undefined (← v.items)
    .ok (list (distinct (← a.switch "case_sensitive") [] keyed))
  | "sort" => some do
    let _ ← a.plainWith 0 ["attribute", "case_sensitive", "reverse"]
    let keyed ← keyedBy (← optional asStr (a.get? "attribute")) undefined (← v.items)
    let items := (inOrder (← a.switch "case_sensitive") keyed).map (·.2)
    .ok (list (if ← a.switch "reverse" then items.reverse else items))
  | "groupby" => some do
    let args ← a.plainWith 1 ["attribute", "case_sensitive", "default"]
    let path ← required asStr ((← optional asValue args[0]?) <|> a.get? "attribute")
    let exact ← a.switch "case_sensitive"
    let keyed ← keyedBy (some path) ((a.get? "default").getD undefined) (← v.items)
    .ok (list ((grouped exact (inOrder exact keyed)).map fun g => group g.1 g.2))
  | "items" => some do
    let _ ← a.positional 0
    match v with
    | map entries => .ok (stream (entries.map fun e => list [e.1, e.2]) true)
    | _ => .error (.unsuited "items")
  | "dictsort" => some do
    let _ ← a.plainWith 0 ["by", "case_sensitive", "reverse"]
    let column := (← optional asStr (a.get? "by")).getD "key"
    match v with
    | map entries =>
      if column ≠ "key".toList && column ≠ "value".toList then .error (.unsuited "dictsort")
      else
        let keyed := entries.map fun e => (if column = "key".toList then e.1 else e.2, list [e.1, e.2])
        let rows := (inOrder (← a.switch "case_sensitive") keyed).map (·.2)
        .ok (list (if ← a.switch "reverse" then rows.reverse else rows))
    | _ => .error (.unsuited "dictsort")
  | "batch" => some do
    let args ← a.positional 2
    let n ← required asNat args[0]?
    let fill ← optional asValue args[1]?
    if n = 0 then .error (.unsuited "batch")
    else
      let items ← v.items
      .ok (list (batches fill (items.length + 1) n items))
  | "slice" => some do
    let args ← a.positional 2
    let n ← required asNat args[0]?
    let fill ← optional asValue args[1]?
    if n = 0 then .error (.unsuited "slice") else .ok (list (slices fill n (← v.items)))
  | "attr" => some do
    let args ← a.positional 1
    element v (← required asValue args[0]?)
  | "chain" => some do
    if a.named.isEmpty then
      let rows ← (v :: a.plain).mapM Value.items
      .ok (stream rows.flatten true)
    else .error (.unsuited "chain")
  | "zip" => some do
    if a.named.isEmpty then
      let rows ← (v :: a.plain).mapM Value.items
      .ok (stream (zipped (rows.flatten.length + 1) rows) true)
    else .error (.unsuited "zip")
  | _ => Option.none

/-- Whether an item is selected: by itself or an attribute, under a test or as
it stands. -/
def selected (byAttribute : Bool) (args : List Value) (item : Value) : Except Fault Bool :=
  match byAttribute, args with
  | false, [] => .ok item.isTrue
  | false, test :: rest => do applyTest (← asText test) item rest
  | true, [path] => do .ok (← attributePath item (← asText path)).isTrue
  | true, path :: test :: rest => do
    applyTest (← asText test) (← attributePath item (← asText path)) rest
  | true, [] => .error (.unsuited "missing argument")

/-- The items that are selected, or those that are not. -/
def select (byAttribute wanted : Bool) (v : Value) (a : Actuals) : Except Fault Value := do
  if !a.named.isEmpty then .error (.unsuited "unknown argument")
  else
    let test := if byAttribute then a.plain[1]? else a.plain[0]?
    match test.map fun t => testNames.contains (String.ofList t.text) with
    | some false => .error (.unknown "test" [])
    | _ =>
      .ok (list (← (← v.items).filterM fun item => do .ok ((← selected byAttribute a.plain item) == wanted)))

/-- An attribute of every item. -/
def mapAttribute (key : Value) (fallback : Option Value) (items : List Value) : Except Fault Value := do
  .ok (list (← items.mapM fun item =>
    let found := match key.str? with
      | some path => attributePath item path
      | Option.none => element item key
    match found, fallback with
    | .ok undefined, some other | .error _, some other => .ok other
    | found, _ => found))

/-- The value of a filter, by position of its plain arguments. `map` takes the
name of another filter as its first argument. -/
def filterValue (name : Text) (named : List (Text × Value)) : List Value → Value → Except Fault Value
  | [], v =>
    match String.ofList name with
    | "map" =>
      match named.lookup "attribute".toList with
      | some key => do
        (Actuals.mk [] named).onlyNames ["attribute", "default"]
        mapAttribute key (named.lookup "default".toList) (← v.items)
      | Option.none => .error (.unsuited "map")
    | _ => other [] v
  | arg :: rest, v =>
    match String.ofList name with
    | "map" =>
      if !named.isEmpty then .error (.unsuited "map")
      else do
        let inner ← asStr arg
        if filterNames.contains (String.ofList inner) then
          .ok (list (← (← v.items).mapM (filterValue inner [] rest)))
        else .error (.unknown "filter" inner)
    | _ => other (arg :: rest) v
where
  /-- Every filter but `map`. -/
  other (plain : List Value) (v : Value) : Except Fault Value :=
    let a : Actuals := ⟨plain, named⟩
    let s := String.ofList name
    match s with
    | "select" => select false true v a
    | "selectattr" => select true true v a
    | "reject" => select false false v a
    | "rejectattr" => select true false v a
    | _ =>
      match textFilter? s v a <|> numberFilter? s v a <|> rowFilter? s v a with
      | some result => result
      | Option.none => .error (.unknown "filter" name)

/-- The value of a filter. -/
def applyFilter (name : Text) (v : Value) (a : Actuals) : Except Fault Value :=
  filterValue name a.named a.plain v

end Template
end DocScribe
