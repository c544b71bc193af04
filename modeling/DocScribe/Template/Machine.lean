/-
What the run of a template keeps: the frames in which variables live, and the
things that values refer to by number.

A frame belongs to the template, to a scope, to a loop from its first round to
its last, or to a call of a macro. Names are looked up from the latest frame
on. A macro sees the variables of the frame it was defined in, also those that
are assigned later.
-/
import DocScribe.Template.Filter

namespace DocScribe
namespace Template

open Value

/-- Variables with their values, the latest first. -/
abbrev Env := List (Text × Value)

/-- Where a loop stands. -/
structure LoopState where
  items : List Value
  /-- Whether the number of items is known to the body. -/
  counted : Bool
  /-- How many recursive loops it stands in. -/
  depth : Nat
  index : Nat := 0
  /-- What the body looked at last to see a change. -/
  seen : Option (List Value) := none

/-- A thing that values refer to by number. -/
inductive Cell where
  | scope (env : Env)
  | space (entries : List (Value × Value))
  | loop (state : LoopState)

/-- The part of a loop that a recursive loop runs again. -/
structure Round where
  target : Target
  body : List Stmt
  recursive : Bool

/-- A frame. -/
structure Frame where
  locals : Env := []
  /-- The loop that the frame belongs to. -/
  loop : Option (Nat × Round) := none
  /-- The number of the variables that the macros defined here see. -/
  captured : Option Nat := none
  /-- The number of the variables that the macro sees that was called. -/
  base : Option Nat := none

/-- The state of a run. -/
structure Machine where
  cells : Array Cell := #[]
  /-- The frames, the latest first. -/
  frames : List Frame := [{}]
  /-- How deep frames and calls are nested. -/
  depth : Nat := 0
  /-- Whether what is emitted is made safe for markup. -/
  escape : Bool := false
  /-- The blocks of the template. -/
  blocks : List (Text × List Stmt) := []

/-- Steps of a run. -/
abbrev Run := StateT Machine (Except Fault)

/-- How deep frames and calls may be nested. -/
def depthLimit : Nat := 500

/-- How much a call of a macro adds to the depth. -/
def callDepth : Nat := 4

/-- The functions that are always there. -/
def routines : List Text := ["range", "dict", "namespace", "debug"]

namespace Machine

/-- The variables under a number. -/
def scopeAt (m : Machine) (number : Nat) : Env :=
  match m.cells[number]? with
  | some (.scope env) => env
  | _ => []

/-- The variables of a frame. -/
def frameEnv (m : Machine) (f : Frame) : Env :=
  f.locals ++ (f.loop.map fun l => ("loop".toList, Value.loop l.1)).toList ++
    (f.base.map m.scopeAt).getD []

/-- The variables in force. -/
def visible (m : Machine) : Env := m.frames.flatMap m.frameEnv

/-- The value of a name. -/
def load? (m : Machine) (name : Text) : Option Value :=
  (m.frames.findSome? fun f => (m.frameEnv f).lookup name) <|>
    if routines.contains name then some (.routine name) else none

/-- One more thing, and its number. -/
def alloc (m : Machine) (c : Cell) : Nat × Machine := (m.cells.size, { m with cells := m.cells.push c })

/-- A thing changed. -/
def setCell (m : Machine) (number : Nat) (c : Cell) : Machine := { m with cells := m.cells.setIfInBounds number c }

/-- A variable put into the latest frame, and shown to the macros defined
there. -/
def store (m : Machine) (name : Text) (v : Value) : Machine :=
  match m.frames with
  | [] => m
  | f :: frames =>
    let m := { m with frames := { f with locals := (name, v) :: f.locals.filter fun e => e.1 != name } :: frames }
    match f.captured with
    | some number => m.setCell number (.scope ((name, v) :: (m.scopeAt number).filter fun e => e.1 != name))
    | Option.none => m

/-- The number of the variables that macros defined in the latest frame see. -/
def capture (m : Machine) : Nat × Machine :=
  match m.frames with
  | [] => m.alloc (.scope [])
  | f :: frames =>
    match f.captured with
    | some number => (number, m.setCell number (.scope (m.scopeAt number ++ m.visible)))
    | Option.none =>
      let (number, m) := m.alloc (.scope m.visible)
      (number, { m with frames := { f with captured := some number } :: frames })

/-- The loop that runs, with its number. -/
def currentLoop? (m : Machine) : Option (Nat × Round) := m.frames.findSome? (·.loop)

/-- How deep a loop stands that starts now. -/
def nextLoopDepth (m : Machine) : Nat :=
  match m.currentLoop? with
  | some (number, round) =>
    match round.recursive, m.cells[number]? with
    | true, some (.loop state) => state.depth + 1
    | _, _ => 0
  | Option.none => 0

/-- Where a loop stands, as it is shown. -/
def loopText (s : LoopState) : Text :=
  "<loop " ++ Text.ofNat s.index ++ '/' :: (if s.counted then Text.ofNat s.items.length else "??".toList) ++ ['>']

/-- A value with everything it refers to written out; `fuel` bounds how deep
it is looked into. -/
def settle (m : Machine) : Nat → Value → Value
  | 0, v => v
  | fuel + 1, v =>
    match v with
    | .list items => .list (items.map (m.settle fuel))
    | .stream items counted => .stream (items.map (m.settle fuel)) counted
    | .map entries => .map (entries.map fun e => (e.1, m.settle fuel e.2))
    | .group key items => .group (m.settle fuel key) (items.map (m.settle fuel))
    | .space number =>
      match m.cells[number]? with
      | some (.space entries) => .map (entries.map fun e => (e.1, m.settle fuel e.2))
      | _ => .undefined
    | .loop number =>
      match m.cells[number]? with
      | some (.loop state) => .object (loopText state)
      | _ => .undefined
    | v => v

/-- How deep values are looked into. -/
def settleDepth : Nat := 100

/-- A value with everything it refers to written out. -/
def settled (m : Machine) (v : Value) : Value := m.settle settleDepth v

/-- What a reference stands for; other values stand for themselves. -/
def target (m : Machine) (v : Value) : Value :=
  match v with
  | .space _ | .loop _ => m.settled v
  | v => v

/-- A loop brought to one of its rounds. -/
def atRound (m : Machine) (number index : Nat) : Machine :=
  match m.cells[number]? with
  | some (.loop state) => m.setCell number (.loop { state with index := index })
  | _ => m

end Machine

/-- What a loop tells its body under a name. -/
def LoopState.get (s : LoopState) (name : Text) : Value :=
  let n := s.items.length
  let counted (v : Value) : Value := if s.counted then v else undefined
  match String.ofList name with
  | "index0" => int s.index
  | "index" => int (s.index + 1 : Nat)
  | "length" => counted (int n)
  | "revindex" => counted (int (n - s.index : Nat))
  | "revindex0" => counted (int (n - s.index - 1 : Nat))
  | "first" => .bool (s.index = 0)
  | "last" => counted (.bool (s.index + 1 = n))
  | "depth" => int (s.depth + 1 : Nat)
  | "depth0" => int s.depth
  | "previtem" => if s.index = 0 then undefined else (s.items[s.index - 1]?).getD undefined
  | "nextitem" => (s.items[s.index + 1]?).getD undefined
  | _ => undefined

/-- The element of a value at an index or under a key. -/
def elementOf (v index : Value) : Run Value := do
  let m ← get
  match v with
  | .space number =>
    match m.cells[number]? with
    | some (.space entries) => pure ((lookup index entries).getD undefined)
    | _ => pure undefined
  | .loop number =>
    match m.cells[number]?, index.str? with
    | some (.loop state), some name => pure (state.get name)
    | _, _ => pure undefined
  | v => element v index

/-- The methods that a loop has. -/
def loopMethod (number : Nat) (name : Text) (args : List Value) : Run Value := do
  let m ← get
  match m.cells[number]?, String.ofList name, args with
  | some (.loop state), "cycle", _ :: _ => pure ((args[state.index % args.length]?).getD undefined)
  | some (.loop state), "changed", args =>
    let changed := match state.seen with
      | some before => !equalLists before args
      | Option.none => true
    set (m.setCell number (.loop { state with seen := some args }))
    pure (.bool changed)
  | _, _, _ => throw (.unknown "method" name)

/-- An entry of a namespace set. -/
def setEntry (space : Value) (key : Text) (v : Value) : Run Unit := do
  let m ← get
  match space with
  | .space number =>
    match m.cells[number]? with
    | some (.space entries) =>
      match mapOf (entries ++ [(str key, v)]) with
      | .map entries => set (m.setCell number (.space entries))
      | _ => pure ()
    | _ => throw (.unsuited "namespace")
  | _ => throw (.unsuited "namespace")

/-- A text that was captured, as a value. -/
def captured (t : Text) : Run Value := do
  pure (if (← get).escape then markup t else str t)

/-- A value as it is emitted. -/
def emitted (v : Value) : Run Text := do
  let m ← get
  pure (if m.escape then markupText (m.settled v) else (m.settled v).text)

/-- Steps in a frame of their own. -/
def inFrame {α : Type} (f : Frame) (steps : Run α) : Run α := do
  let m ← get
  if depthLimit < m.depth then throw .tooDeep
  set { m with frames := f :: m.frames, depth := m.depth + 1 }
  let result ← steps
  modify fun m => { m with frames := m.frames.tail, depth := m.depth - 1 }
  pure result

/-- Steps that see no other frame than one of their own, as those of a macro. -/
def inCall {α : Type} (f : Frame) (steps : Run α) : Run α := do
  let m ← get
  if depthLimit < m.depth then throw .tooDeep
  set { m with frames := [f], depth := m.depth + callDepth }
  let result ← steps
  modify fun after => { after with frames := m.frames, depth := m.depth }
  pure result

end Template
end DocScribe
