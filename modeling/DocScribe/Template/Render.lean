/-
Rendering templates: the values of expressions and the texts of statements.

Every step has a fuel that bounds how deep the evaluation goes. Frames and
calls of macros are also counted, and too many of them are a fault, so that a
macro that calls itself without end is refused.
-/
import DocScribe.Template.Machine
import DocScribe.Template.Parser

namespace DocScribe
namespace Template

open Value

/-- The longest range. -/
def rangeLimit : Nat := 100000

/-- The numbers of a range. -/
def rangeOf (a : Actuals) : Except Fault Value := do
  let args ← a.positional 3
  let first ← required asInt args[0]?
  let second ← optional asInt args[1]?
  let step := (← optional asInt args[2]?).getD 1
  let (lower, upper) := match second with
    | some upper => (first, upper)
    | Option.none => (0, first)
  if step = 0 then .error (.unsuited "range")
  else
    let n := if 0 < step then (upper - lower + step - 1) / step else (lower - upper - step - 1) / (-step)
    if rangeLimit < n.toNat then .error (.unsuited "range")
    else .ok (stream ((List.range n.toNat).map fun (k : Nat) => int (lower + step * k)) true)

/-- A map from another one and the named arguments. -/
def dictOf (a : Actuals) : Except Fault Value := do
  if 1 < a.plain.length then .error (.unsuited "too many arguments")
  match ← optional asValue a.plain[0]? with
  | Option.none => .ok (mapOf a.bundle)
  | some (map entries) => .ok (mapOf (entries ++ a.bundle))
  | some _ => .error (.unsuited "map")

/-- The entries that a namespace starts with. -/
def spaceEntries (a : Actuals) : Except Fault (List (Value × Value)) := do
  let args ← a.positional 1
  match ← optional asValue args[0]? with
  | Option.none => .ok []
  | some (map entries) | some (Value.named entries) =>
    if entries.all fun e => e.1.str?.isSome then .ok entries else .error (.unsuited "namespace")
  | some _ => .error (.unsuited "namespace")

/-- The value of a call of a function that is always there. -/
def applyRoutine (name : Text) (a : Actuals) : Run Value := do
  match String.ofList name, a.plain with
  | "range", _ => rangeOf a
  | "dict", _ => dictOf a
  | "namespace", _ =>
    let entries ← spaceEntries a
    modifyGet fun m =>
      let (number, m) := m.alloc (.space entries)
      (.space number, m)
  | "debug", [v] => pure (str v.pretty)
  | "debug", _ :: _ => pure (str (list a.plain).pretty)
  | _, _ => throw (.unsuited "call")

/-- The values of the parameters of a macro. No parameter is given twice, and
other names than those of parameters are only taken for the caller. -/
def parameterValues (params : List Param) (callsBack : Bool) (a : Actuals) : Except Fault (List Value) := do
  let names := params.map (·.1)
  if names.length < a.plain.length then .error (.unsuited "too many arguments")
  if (names.take a.plain.length).any fun n => (a.get? n).isSome then .error (.unsuited "argument given twice")
  a.onlyNames (if callsBack then "caller".toList :: names else names)
  .ok (names.mapIdx fun i n => ((a.plain[i]? <|> a.get? n).getD undefined))

/-- A macro that sees the variables of the latest frame. -/
def macroOf (name : Text) (params : List Param) (body : List Stmt) : Run Value :=
  modifyGet fun m =>
    let (scope, m) := m.capture
    let callsBack := paramsMention "caller" params || stmtsMention "caller" body
    (.defined name params body callsBack scope, m)

/-- The values that the targets of an assignment are given one by one. -/
def unpacked (n : Nat) (v : Value) : Except Fault (List Value) :=
  match v with
  | list _ | stream .. | group .. | map _ => do
    let items ← v.items
    if items.length = n then .ok items else .error (.unsuited "unpacking")
  | _ => .error (.unsuited "unpacking")

/-- Whether what is emitted is made safe for markup, by the value given for it. -/
def escapeMode (v : Value) : Except Fault Bool :=
  match v.str? with
  | some t =>
    if t = "html".toList then .ok true
    else if t = "none".toList then .ok false
    else .error (.unsuited "autoescape")
  | Option.none => .ok (equal v (.bool true))

/-- What is taken in of other templates: there are none, so that each that is
asked for is missing. -/
def fetched (v : Value) (optional : Bool) : Except Fault Unit := do
  let names ← match v with
    | list _ | stream .. | map _ => v.items
    | v => .ok [v]
  for name in names do
    let name ← asStr name
    if !optional then .error (.notFound name)

mutual

/-- The value of an expression. -/
def eval : Nat → Expr → Run Value
  | 0, _ => throw .tooDeep
  | fuel + 1, e => do
    match e with
    | .literal l => pure (ofLiteral l)
    | .var n => pure (((← get).load? n).getD undefined)
    | .list items => pure (list (← items.mapM (eval fuel)))
    | .map entries =>
      pure (mapOf (← entries.mapM fun e => do
        let key ← settledValue fuel e.1
        pure (key, ← eval fuel e.2)))
    | .neg e =>
      match ← eval fuel e with
      | int n => checked (-n)
      | real x => pure (real (-x))
      | _ => throw (.unsuited "-")
    | .not e => pure (.bool (!(← holdsTrue fuel e)))
    | .binary op a b =>
      let x ← settledValue fuel a
      let y ← settledValue fuel b
      binary op x y
    | .and a b =>
      let v ← eval fuel a
      if ((← get).settled v).isTrue then eval fuel b else pure v
    | .or a b =>
      let v ← eval fuel a
      if ((← get).settled v).isTrue then pure v else eval fuel b
    | .cond holds yes no =>
      if ← holdsTrue fuel holds then eval fuel yes
      else
        match no with
        | some no => eval fuel no
        | Option.none => pure undefined
    | .attr e n => elementOf (← eval fuel e) (str n)
    | .item e i =>
      let v ← eval fuel e
      elementOf v (← settledValue fuel i)
    | .slice e start stop step =>
      let v ← settledValue fuel e
      let start ← sliceBound fuel start
      let stop ← sliceBound fuel stop
      let step ← sliceBound fuel step
      sliced v start stop (step.getD 1)
    | .call f args => evalCall fuel f args []
    | .filter n e args =>
      let v ← settledValue fuel e
      applyFilter n v (← settledArgs fuel args)
    | .test n e args =>
      let v ← settledValue fuel e
      let a ← settledArgs fuel args
      if a.named.isEmpty then pure (.bool (← applyTest n v a.plain)) else throw (.unsuited "test")

/-- The value of an expression with everything it refers to written out. -/
def settledValue : Nat → Expr → Run Value
  | 0, _ => throw .tooDeep
  | fuel + 1, e => do
    let v ← eval fuel e
    pure ((← get).settled v)

/-- Whether the value of an expression counts as true. -/
def holdsTrue : Nat → Expr → Run Bool
  | 0, _ => throw .tooDeep
  | fuel + 1, e => do pure (← settledValue fuel e).isTrue

/-- A bound of a slice. -/
def sliceBound : Nat → Option Expr → Run (Option Int)
  | 0, _ => throw .tooDeep
  | _ + 1, Option.none => pure Option.none
  | fuel + 1, some e => do
    match ← eval fuel e with
    | .none => pure Option.none
    | v => pure (some (← asInt v))

/-- The values of arguments. -/
def evalArgs : Nat → Args → Run Actuals
  | 0, _ => throw .tooDeep
  | fuel + 1, args => do pure (.ofList (← args.mapM fun a => do pure (a.1, ← eval fuel a.2)))

/-- The values of arguments with everything they refer to written out. -/
def settledArgs : Nat → Args → Run Actuals
  | 0, _ => throw .tooDeep
  | fuel + 1, args => do pure (.ofList (← args.mapM fun a => do pure (a.1, ← settledValue fuel a.2)))

/-- The value of a call, in which named arguments are added to those that are
written. The names `loop`, `super` and `self` are called in their own ways. -/
def evalCall : Nat → Expr → Args → List (Text × Value) → Run Value
  | 0, _, _, _ => throw .tooDeep
  | fuel + 1, f, args, more => do
    match f with
    | .var n =>
      let a ← evalArgs fuel args
      let a := { a with named := a.named ++ more }
      match String.ofList n, a.positional 1 with
      | "super", _ => throw (.unsuited "super")
      | "loop", .ok [v] => rerun fuel v
      | "loop", _ => throw (.unsuited "loop")
      | _, _ =>
        match (← get).load? n with
        | some f => invoke fuel f a
        | Option.none => throw (.unknown "function" n)
    | .attr e n =>
      if e.isVar "self" then renderBlock fuel n
      else
        let v ← eval fuel e
        let a ← evalArgs fuel args
        let a := { a with named := a.named ++ more }
        match v, (← get).target v with
        | .loop number, _ => loopMethod number n a.plain
        | _, map entries =>
          match lookup (str n) entries with
          | some f => invoke fuel f a
          | Option.none => throw (.unknown "method" n)
        | _, _ => throw (.unknown "method" n)
    | f =>
      let f ← eval fuel f
      let a ← evalArgs fuel args
      invoke fuel f { a with named := a.named ++ more }

/-- The value of a call of a function or a macro. The parameters of a macro are
set from the last to the first, so that a default sees those after it. -/
def invoke : Nat → Value → Actuals → Run Value
  | 0, _, _ => throw .tooDeep
  | fuel + 1, f, a => do
    match f with
    | .routine n =>
      let m ← get
      applyRoutine n ⟨a.plain.map m.settled, a.named.map fun e => (e.1, m.settled e.2)⟩
    | .defined _ params body callsBack scope =>
      let values ← parameterValues params callsBack a
      let t ← inCall { base := some scope } do
        if callsBack then modify (·.store "caller" ((a.get? "caller").getD undefined))
        for (p, v) in (params.zip values).reverse do
          match v, p.2 with
          | undefined, some e => do
            let v ← eval fuel e
            modify (·.store p.1 v)
          | v, _ => modify (·.store p.1 v)
        render fuel body
      captured t
    | _ => throw (.unsuited "call")

/-- The text of the loop that runs, run again inside itself over other items. -/
def rerun : Nat → Value → Run Value
  | 0, _ => throw .tooDeep
  | fuel + 1, v => do
    match (← get).currentLoop? with
    | some (_, round) =>
      if round.recursive then captured (← rounds fuel round ((← get).target v))
      else throw (.unsuited "loop")
    | Option.none => throw (.unsuited "loop")

/-- The text of all rounds of a loop over a value. -/
def rounds : Nat → Round → Value → Run Text
  | 0, _, _ => throw .tooDeep
  | fuel + 1, round, v => do
    let items ← v.items
    let m ← get
    let state : LoopState := { items, counted := v.isCounted, depth := m.nextLoopDepth }
    let (number, m) := m.alloc (.loop state)
    set m
    inFrame { loop := some (number, round) } do
      let texts ← items.zipIdx.mapM fun (item, i) => do
        modify (·.atRound number i)
        assign fuel round.target item
        render fuel round.body
      pure texts.flatten

/-- The text of a block of the template. -/
def renderBlock : Nat → Text → Run Value
  | 0, _ => throw .tooDeep
  | fuel + 1, n => do
    match (← get).blocks.lookup n with
    | some body => captured (← inFrame {} (render fuel body))
    | Option.none => throw (.unknown "block" n)

/-- A value given to the target of an assignment. -/
def assign : Nat → Target → Value → Run Unit
  | 0, _, _ => throw .tooDeep
  | fuel + 1, target, v => do
    match target with
    | .name n => modify (·.store n v)
    | .entry owner key => setEntry (← eval fuel owner) key v
    | .row targets =>
      let items ← unpacked targets.length ((← get).target v)
      for (target, item) in targets.zip items do
        assign fuel target item

/-- A captured text after some filters. -/
def applyFilters : Nat → Value → List (Text × Args) → Run Value
  | 0, _, _ => throw .tooDeep
  | _ + 1, v, [] => pure v
  | fuel + 1, v, (n, args) :: filters => do
    let v ← applyFilter n v (← settledArgs fuel args)
    applyFilters fuel v filters

/-- The text of the first arm whose condition holds. -/
def renderArms : Nat → List (Expr × List Stmt) → List Stmt → Run Text
  | 0, _, _ => throw .tooDeep
  | fuel + 1, [], otherwise => render fuel otherwise
  | fuel + 1, (condition, body) :: arms, otherwise => do
    if ← holdsTrue fuel condition then render fuel body else renderArms fuel arms otherwise

/-- The items of a loop that its guard lets through. The guard is evaluated in
a frame of its own, in which the loop does not yet show. -/
def guarded : Nat → Target → Option Expr → Value → Run Value
  | 0, _, _, _ => throw .tooDeep
  | _ + 1, _, Option.none, v => pure v
  | fuel + 1, target, some guard, v => do
    let items ← v.items
    inFrame {} do
      pure (list (← items.filterM fun item => do
        assign fuel target item
        holdsTrue fuel guard))

/-- The text of a statement. -/
def renderStmt : Nat → Stmt → Run Text
  | 0, _ => throw .tooDeep
  | fuel + 1, s => do
    match s with
    | .text t => pure t
    | .emit e => emitted (← eval fuel e)
    | .branch arms otherwise => renderArms fuel arms otherwise
    | .loop target items guard recursive body otherwise =>
      let all ← eval fuel items
      let kept ← guarded fuel target guard ((← get).target all)
      let t ← rounds fuel ⟨target, body, recursive⟩ kept
      if (← kept.items).isEmpty then render fuel otherwise else pure t
    | .assign target e =>
      let v ← eval fuel e
      assign fuel target v
      pure []
    | .capture target filters body =>
      let v ← captured (← render fuel body)
      assign fuel target (← applyFilters fuel v filters)
      pure []
    | .scope assigns body =>
      inFrame {} do
        for (target, e) in assigns do
          assign fuel target (← eval fuel e)
        render fuel body
    | .define n params body =>
      let v ← macroOf n params body
      modify (·.store n v)
      pure []
    | .callBody f args params body =>
      let caller ← macroOf "caller" params body
      emitted (← evalCall fuel f args [("caller", caller)])
    | .filtered filters body =>
      let v ← captured (← render fuel body)
      emitted (← applyFilters fuel v filters)
    | .escaping mode body =>
      let mode ← escapeMode (← settledValue fuel mode)
      let before := (← get).escape
      modify fun m => { m with escape := mode }
      let t ← render fuel body
      modify fun m => { m with escape := before }
      pure t
    | .block _ body => inFrame {} (render fuel body)
    | .fetch name optional =>
      fetched (← settledValue fuel name) optional
      pure []
    | .eval e =>
      let _ ← eval fuel e
      pure []

/-- The text of statements. -/
def render : Nat → List Stmt → Run Text
  | 0, _ => throw .tooDeep
  | fuel + 1, stmts => do pure (← stmts.mapM (renderStmt fuel)).flatten

end

/-- The fuel for a template: enough for frames and calls nested as deep as
they may be. -/
def fuelFor (template : Text) : Nat := 600 * (template.length + 100)

/-- The text of a template for given variables. -/
def renderText (template : Text) (scope : Env) : Except Fault Text := do
  let stmts ← parse template
  let start : Machine := { frames := [{ locals := scope }], blocks := blocksIn stmts }
  (render (fuelFor template) stmts).run' start

end Template
end DocScribe
