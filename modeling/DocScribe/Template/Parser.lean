/-
Reading templates: from tokens to trees.

A reader takes tokens from the front of a list. Expressions are read level by
level, from the loosest operator to the tightest; what stands in brackets is
read by the reader of whole expressions again.
-/
import DocScribe.Template.Expr
import DocScribe.Template.Token

namespace DocScribe
namespace Template

/-- A reader of something at the front of a list of tokens. -/
abbrev Read (α : Type) := List Token → Except Fault (α × List Token)

/-- The tokens after an expected one. -/
def expect (token : Token) (name : Text) : List Token → Except Fault (List Token)
  | t :: ts => if t = token then .ok ts else .error (.malformed name)
  | [] => .error (.malformed name)

/-- The tokens after an expected mark. -/
def expectMark (m : Text) : List Token → Except Fault (List Token) := expect (.mark m) m

/-- The tokens after an expected word. -/
def expectWord (w : Text) : List Token → Except Fault (List Token) := expect (.name w) w

/-- A name. -/
def readName : Read Text
  | .name n :: ts => .ok (n, ts)
  | _ => .error (.malformed "name")

/-- Items between commas up to a closing mark; a comma may stand at the end. -/
def readItems {α : Type} (item : Read α) (close : Text) : Nat → Read (List α)
  | 0, _ => .error (.malformed close)
  | fuel + 1, ts =>
    if ts.head? = some (.mark close) then .ok ([], ts.drop 1)
    else do
      let (a, ts) ← item ts
      match ts with
      | .mark [','] :: ts =>
        let (rest, ts) ← readItems item close fuel ts
        .ok (a :: rest, ts)
      | ts => do .ok ([a], ← expectMark close ts)

/-- An argument, possibly named. -/
def readArg (expr : Read Expr) : Read (Option Text × Expr)
  | .name n :: .mark ['='] :: ts => do
    let (e, ts) ← expr ts
    .ok ((some n, e), ts)
  | ts => do
    let (e, ts) ← expr ts
    .ok ((none, e), ts)

/-- Whether no argument without a name follows one with a name. -/
def namedLast : Args → Bool
  | [] => true
  | (none, _) :: rest => namedLast rest
  | (some _, _) :: rest => rest.all fun a => a.1.isSome

/-- Arguments, after their opening parenthesis. -/
def readArgs (expr : Read Expr) : Read Args := fun ts => do
  let (args, ts) ← readItems (readArg expr) ")" (ts.length + 1) ts
  if namedLast args then .ok (args, ts) else .error (.malformed "named argument")

/-- Arguments in parentheses, if there are any. -/
def readOptionalArgs (expr : Read Expr) : Read Args
  | .mark ['('] :: ts => readArgs expr ts
  | ts => .ok ([], ts)

/-- What stands in parentheses: an expression, or a list of several. -/
def readParens (expr : Read Expr) : Read Expr
  | .mark [')'] :: ts => .ok (.list [], ts)
  | ts => do
    let (e, ts) ← expr ts
    match ts with
    | .mark [')'] :: ts => .ok (e, ts)
    | .mark [','] :: ts =>
      let (rest, ts) ← readItems expr ")" (ts.length + 1) ts
      .ok (.list (e :: rest), ts)
    | _ => .error (.malformed ")")

/-- An entry of a map. -/
def readEntry (expr : Read Expr) : Read (Expr × Expr) := fun ts => do
  let (key, ts) ← expr ts
  let ts ← expectMark ":" ts
  let (value, ts) ← expr ts
  .ok ((key, value), ts)

/-- A literal, a name, or something in brackets. -/
def readPrimary (expr : Read Expr) : Read Expr
  | .name n :: ts =>
    match String.ofList n with
    | "true" | "True" => .ok (.literal (.bool true), ts)
    | "false" | "False" => .ok (.literal (.bool false), ts)
    | "none" | "None" => .ok (.literal .none, ts)
    | _ => .ok (.var n, ts)
  | .str t :: ts => .ok (.literal (.str t), ts)
  | .int n :: ts => .ok (.literal (.int n), ts)
  | .real digits scale :: ts => .ok (.literal (.real digits scale), ts)
  | .mark ['('] :: ts => readParens expr ts
  | .mark ['['] :: ts => do
    let (items, ts) ← readItems expr "]" (ts.length + 1) ts
    .ok (.list items, ts)
  | .mark ['\x7b'] :: ts => do
    let (entries, ts) ← readItems (readEntry expr) ['\x7d'] (ts.length + 1) ts
    .ok (.map entries, ts)
  | _ => .error (.malformed "expression")

/-- A bound of a slice, if there is one. -/
def readBound (expr : Read Expr) : Read (Option Expr)
  | .mark [':'] :: ts => .ok (none, .mark [':'] :: ts)
  | .mark [']'] :: ts => .ok (none, .mark [']'] :: ts)
  | ts => do
    let (e, ts) ← expr ts
    .ok (some e, ts)

/-- An index or a slice, after its opening bracket. -/
def readSubscript (expr : Read Expr) (e : Expr) : Read Expr := fun ts => do
  let (start, ts) ← readBound expr ts
  match ts with
  | .mark [':'] :: ts =>
    let (stop, ts) ← readBound expr ts
    match ts with
    | .mark [':'] :: ts =>
      let (step, ts) ← readBound expr ts
      .ok (.slice e start stop step, ← expectMark "]" ts)
    | ts => do .ok (.slice e start stop none, ← expectMark "]" ts)
  | ts =>
    match start with
    | some index => do .ok (.item e index, ← expectMark "]" ts)
    | none => .error (.malformed "index")

/-- Attributes, indices and calls after an expression. -/
def readPostfix (expr : Read Expr) : Nat → Expr → Read Expr
  | 0, e, ts => .ok (e, ts)
  | fuel + 1, e, ts =>
    match ts with
    | .mark ['.'] :: .name n :: ts => readPostfix expr fuel (.attr e n) ts
    | .mark ['.'] :: .int n :: ts => readPostfix expr fuel (.item e (.literal (.int n))) ts
    | .mark ['.'] :: _ => .error (.malformed "name")
    | .mark ['['] :: ts => do
      let (e, ts) ← readSubscript expr e ts
      readPostfix expr fuel e ts
    | .mark ['('] :: ts => do
      let (args, ts) ← readArgs expr ts
      readPostfix expr fuel (.call e args) ts
    | ts => .ok (e, ts)

/-- An expression with any number of minus signs before it. -/
def readSigned (expr : Read Expr) : Read Expr
  | .mark ['-'] :: ts => do
    let (e, ts) ← readSigned expr ts
    .ok (.neg e, ts)
  | ts => readPrimary expr ts

/-- A signed expression with what is attached to it. -/
def readOperand (expr : Read Expr) : Read Expr := fun ts => do
  let (e, ts) ← readSigned expr ts
  readPostfix expr (ts.length + 1) e ts

/-- Whether a token can start the single argument of a test. -/
def startsArg : Token → Bool
  | .name n => !(["and", "or", "else", "is", "if", "in", "not"].contains (String.ofList n))
  | .str _ | .int _ | .real _ _ | .mark ['-'] | .mark ['['] | .mark ['\x7b'] => true
  | _ => false

/-- The arguments of a test, in parentheses or a single one without. -/
def readTestArgs (expr : Read Expr) : Read Args
  | .mark ['('] :: ts => readArgs expr ts
  | [] => .ok ([], [])
  | t :: ts =>
    if startsArg t then do
      let (e, ts) ← readOperand expr (t :: ts)
      .ok ([(none, e)], ts)
    else .ok ([], t :: ts)

/-- Filters and tests after an expression. -/
def readFilters (expr : Read Expr) : Nat → Expr → Read Expr
  | 0, e, ts => .ok (e, ts)
  | fuel + 1, e, ts =>
    match ts with
    | .mark ['|'] :: ts => do
      let (n, ts) ← readName ts
      let (args, ts) ← readOptionalArgs expr ts
      readFilters expr fuel (.filter n e args) ts
    | .name ['i', 's'] :: .name ['n', 'o', 't'] :: ts => do
      let (n, ts) ← readName ts
      let (args, ts) ← readTestArgs expr ts
      readFilters expr fuel (.not (.test n e args)) ts
    | .name ['i', 's'] :: ts => do
      let (n, ts) ← readName ts
      let (args, ts) ← readTestArgs expr ts
      readFilters expr fuel (.test n e args) ts
    | ts => .ok (e, ts)

/-- An operand with its filters and tests. -/
def readUnary (expr : Read Expr) : Read Expr := fun ts => do
  let (e, ts) ← readOperand expr ts
  readFilters expr (ts.length + 1) e ts

/-- Operations of one level, which bind to the left. -/
def readLevel (operation? : Token → Option (Expr → Expr → Expr)) (next : Read Expr) : Nat → Expr → Read Expr
  | 0, a, ts => .ok (a, ts)
  | fuel + 1, a, ts =>
    match ts with
    | [] => .ok (a, [])
    | t :: rest =>
      match operation? t with
      | some operation => do
        let (b, ts) ← next rest
        readLevel operation? next fuel (operation a b) ts
      | none => .ok (a, t :: rest)

/-- An expression of one level. -/
def level (operation? : Token → Option (Expr → Expr → Expr)) (next : Read Expr) : Read Expr := fun ts => do
  let (a, ts) ← next ts
  readLevel operation? next (ts.length + 1) a ts

def power? : Token → Option (Expr → Expr → Expr)
  | .mark ['*', '*'] => some (.binary .pow)
  | _ => none

def product? : Token → Option (Expr → Expr → Expr)
  | .mark ['*'] => some (.binary .mul)
  | .mark ['/'] => some (.binary .div)
  | .mark ['/', '/'] => some (.binary .floorDiv)
  | .mark ['%'] => some (.binary .rem)
  | _ => none

def concat? : Token → Option (Expr → Expr → Expr)
  | .mark ['~'] => some (.binary .concat)
  | _ => none

def sum? : Token → Option (Expr → Expr → Expr)
  | .mark ['+'] => some (.binary .add)
  | .mark ['-'] => some (.binary .sub)
  | _ => none

def comparison? : Token → Option (Expr → Expr → Expr)
  | .mark ['=', '='] => some (.binary .eq)
  | .mark ['!', '='] => some (.binary .ne)
  | .mark ['<'] => some (.binary .lt)
  | .mark ['<', '='] => some (.binary .le)
  | .mark ['>'] => some (.binary .gt)
  | .mark ['>', '='] => some (.binary .ge)
  | .name ['i', 'n'] => some (.binary .within)
  | _ => none

def conjunction? : Token → Option (Expr → Expr → Expr)
  | .name ['a', 'n', 'd'] => some .and
  | _ => none

def disjunction? : Token → Option (Expr → Expr → Expr)
  | .name ['o', 'r'] => some .or
  | _ => none

/-- Comparisons, `not in` among them. -/
def readComparisons (next : Read Expr) : Nat → Expr → Read Expr
  | 0, a, ts => .ok (a, ts)
  | fuel + 1, a, ts =>
    match ts with
    | .name ['n', 'o', 't'] :: ts => do
      let (b, ts) ← next (← expectWord "in" ts)
      readComparisons next fuel (.not (.binary .within a b)) ts
    | [] => .ok (a, [])
    | t :: rest =>
      match comparison? t with
      | some operation => do
        let (b, ts) ← next rest
        readComparisons next fuel (operation a b) ts
      | none => .ok (a, t :: rest)

/-- An expression with any number of negations before it. -/
def readNot (next : Read Expr) : Read Expr
  | .name ['n', 'o', 't'] :: ts => do
    let (e, ts) ← readNot next ts
    .ok (.not e, ts)
  | ts => next ts

/-- An expression without a condition after it. -/
def readDisjunction (expr : Read Expr) : Read Expr :=
  let sums := level sum? (level concat? (level product? (level power? (readUnary expr))))
  let comparisons : Read Expr := fun ts => do
    let (a, ts) ← sums ts
    readComparisons sums (ts.length + 1) a ts
  level disjunction? (level conjunction? (readNot comparisons))

/-- Conditions after an expression, each with what holds otherwise. -/
def readConditions (expr : Read Expr) : Nat → Expr → Read Expr
  | 0, e, ts => .ok (e, ts)
  | fuel + 1, e, ts =>
    match ts with
    | .name ['i', 'f'] :: ts => do
      let (test, ts) ← readDisjunction expr ts
      match ts with
      | .name ['e', 'l', 's', 'e'] :: ts =>
        let (no, ts) ← expr ts
        readConditions expr fuel (.cond test e (some no)) ts
      | ts => readConditions expr fuel (.cond test e none) ts
    | ts => .ok (e, ts)

/-- A whole expression; `depth` bounds how deep it nests. -/
def readExpr : Nat → Read Expr
  | 0, _ => .error .tooDeep
  | depth + 1, ts => do
    let (e, ts) ← readDisjunction (readExpr depth) ts
    readConditions (readExpr depth) (ts.length + 1) e ts

/-- A whole expression at the front of some tokens. -/
def expression : Read Expr := fun ts => readExpr (ts.length + 1) ts

/-- An expression that cannot have a condition after it. -/
def plainExpression : Read Expr := fun ts => readDisjunction (readExpr ts.length) ts

/-- The names that nothing is assigned to. -/
def reservedNames : List String := ["true", "True", "false", "False", "none", "None", "loop", "self"]

/-- A name that can be assigned to. -/
def readNewName : Read Text := fun ts => do
  let (n, ts) ← readName ts
  if reservedNames.contains (String.ofList n) then .error (.malformed "name") else .ok (n, ts)

/-- Whether a token ends the targets of an assignment. -/
def endsTargets : Token → Bool
  | .mark [')'] | .showClose | .tagClose | .name ['i', 'n'] => true
  | _ => false

/-- Targets between commas, and whether there was a comma. -/
def readTargetRow : Nat → Read (List Target × Bool)
  | 0, _ => .error (.malformed "name")
  | fuel + 1, ts =>
    if (ts.head?.map endsTargets).getD false then .ok (([], false), ts)
    else do
      let (first, ts) ← match ts with
        | .mark ['('] :: ts => do
          let ((row, several), ts) ← readTargetRow fuel ts
          let ts ← expectMark ")" ts
          match row, several with
          | [one], false => .ok (one, ts)
          | row, _ => .ok (Target.row row, ts)
        | ts => do
          let (n, ts) ← readNewName ts
          .ok (Target.name n, ts)
      match ts with
      | .mark [','] :: ts =>
        let ((row, _), ts) ← readTargetRow fuel ts
        .ok ((first :: row, true), ts)
      | ts => .ok (([first], false), ts)

/-- The target of a loop: one, or several between commas. -/
def readTarget : Read Target := fun ts => do
  let ((row, several), ts) ← readTargetRow (ts.length + 1) ts
  match row, several with
  | [one], false => .ok (one, ts)
  | row, _ => .ok (.row row, ts)

/-- The rest of a target that is an entry of a namespace. -/
def readEntryTarget : Nat → Expr → Text → Read Target
  | 0, _, _, _ => .error (.malformed "name")
  | fuel + 1, e, key, ts =>
    match ts with
    | .mark ['.'] :: ts => do
      let (n, ts) ← readName ts
      readEntryTarget fuel (.attr e key) n ts
    | ts => .ok (.entry e key, ts)

/-- The target of an assignment: a name, an entry of a namespace, or several
targets in parentheses; and whether it stands in parentheses. -/
def readSetTarget : Read (Target × Bool)
  | .mark ['('] :: ts => do
    let (target, ts) ← readTarget ts
    .ok ((target, true), ← expectMark ")" ts)
  | ts => do
    let (n, ts) ← readNewName ts
    match ts with
    | .mark ['.'] :: ts =>
      let (key, ts) ← readName ts
      let (target, ts) ← readEntryTarget (ts.length + 1) (.var n) key ts
      .ok ((target, false), ts)
    | ts => .ok ((.name n, false), ts)

/-- A row of filters. -/
def readFilterRow : Nat → Read (List (Text × Args))
  | 0, _ => .error (.malformed "filter")
  | fuel + 1, ts => do
    let (n, ts) ← readName ts
    let (args, ts) ← readOptionalArgs expression ts
    match ts with
    | .mark ['|'] :: ts =>
      let (rest, ts) ← readFilterRow fuel ts
      .ok ((n, args) :: rest, ts)
    | ts => .ok ([(n, args)], ts)

/-- The assignments of a scope, up to the end of the tag. -/
def readAssigns : Nat → Read (List (Target × Expr))
  | 0, _ => .error (.malformed "=")
  | fuel + 1, ts =>
    match ts with
    | .tagClose :: ts => .ok ([], .tagClose :: ts)
    | ts => do
      let (target, ts) ← match ts with
        | .mark ['('] :: ts => do
          let (target, ts) ← readTarget ts
          .ok (target, ← expectMark ")" ts)
        | ts => do
          let (n, ts) ← readNewName ts
          .ok (.name n, ts)
      let (e, ts) ← expression (← expectMark "=" ts)
      match ts with
      | .mark [','] :: ts =>
        let (rest, ts) ← readAssigns fuel ts
        .ok ((target, e) :: rest, ts)
      | .tagClose :: _ => .ok ([(target, e)], ts)
      | _ => .error (.malformed ",")

/-- A parameter of a macro, with its default. -/
def readParam : Read Param := fun ts => do
  let (n, ts) ← readNewName ts
  match ts with
  | .mark ['='] :: ts =>
    let (e, ts) ← expression ts
    .ok ((n, some e), ts)
  | ts => .ok ((n, none), ts)

/-- Whether no parameter without a default follows one with a default. -/
def defaultsLast : List Param → Bool
  | [] => true
  | (_, none) :: rest => defaultsLast rest
  | (_, some _) :: rest => rest.all fun p => p.2.isSome

/-- The parameters of a macro, after their opening parenthesis. -/
def readParams : Read (List Param) := fun ts => do
  let (params, ts) ← readItems readParam ")" (ts.length + 1) ts
  if defaultsLast params then .ok (params, ts) else .error (.malformed "=")

/-- The tokens after the end of a tag. -/
def endTag : List Token → Except Fault (List Token) := expect .tagClose "end of tag"

/-- A reader of statements up to a tag that starts with one of some words. -/
abbrev ReadBody := List Text → Read (List Stmt)

/-- The arms of a branch after its first condition. -/
def readArms (body : ReadBody) (test : Expr) : Nat → Read Stmt
  | 0, _ => .error (.malformed "endif")
  | fuel + 1, ts => do
    let (yes, ts) ← body ["elif", "else", "endif"] (← endTag ts)
    match ts with
    | .name ['e', 'l', 'i', 'f'] :: ts =>
      let (next, ts) ← expression ts
      let (later, ts) ← readArms body next fuel ts
      match later with
      | .branch arms otherwise => .ok (.branch ((test, yes) :: arms) otherwise, ts)
      | _ => .error (.malformed "endif")
    | .name ['e', 'l', 's', 'e'] :: ts =>
      let (no, ts) ← body ["endif"] (← endTag ts)
      .ok (.branch [(test, yes)] no, ts.drop 1)
    | ts => .ok (.branch [(test, yes)] [], ts.drop 1)

/-- A loop. -/
def readLoop (body : ReadBody) : Read Stmt := fun ts => do
  let (target, ts) ← readTarget ts
  let (items, ts) ← plainExpression (← expectWord "in" ts)
  let (guard, ts) ← match ts with
    | .name ['i', 'f'] :: ts => do
      let (e, ts) ← expression ts
      .ok (some e, ts)
    | ts => .ok (none, ts)
  let (recursive, ts) := match ts with
    | .name ['r', 'e', 'c', 'u', 'r', 's', 'i', 'v', 'e'] :: ts => (true, ts)
    | ts => (false, ts)
  let (main, ts) ← body ["else", "endfor"] (← endTag ts)
  match ts with
  | .name ['e', 'l', 's', 'e'] :: ts =>
    let (otherwise, ts) ← body ["endfor"] (← endTag ts)
    .ok (.loop target items guard recursive main otherwise, ts.drop 1)
  | ts => .ok (.loop target items guard recursive main [], ts.drop 1)

/-- An assignment, or a body captured under a name. -/
def readSet (body : ReadBody) : Read Stmt := fun ts => do
  let ((target, inParens), ts) ← readSetTarget ts
  match inParens, ts with
  | false, .mark ['|'] :: ts =>
    let (filters, ts) ← readFilterRow (ts.length + 1) ts
    let (captured, ts) ← body ["endset"] (← endTag ts)
    .ok (.capture target filters captured, ts.drop 1)
  | false, .tagClose :: ts =>
    let (captured, ts) ← body ["endset"] ts
    .ok (.capture target [] captured, ts.drop 1)
  | _, ts =>
    let (e, ts) ← expression (← expectMark "=" ts)
    .ok (.assign target e, ts)

/-- The body of a macro, in which no blocks stand. -/
def readMacroBody (body : ReadBody) (ending : Text) : Read (List Stmt) := fun ts => do
  let (main, ts) ← body [ending] (← endTag ts)
  if (blocksIn main).isEmpty then .ok (main, ts.drop 1) else .error (.malformed "no block")

/-- The definition of a macro. -/
def readMacro (body : ReadBody) : Read Stmt := fun ts => do
  let (n, ts) ← readName ts
  let (params, ts) ← readParams (← expectMark "(" ts)
  let (main, ts) ← readMacroBody body "endmacro" ts
  .ok (.define n params main, ts)

/-- A call with a body. -/
def readCallBody (body : ReadBody) : Read Stmt := fun ts => do
  let (params, ts) ← match ts with
    | .mark ['('] :: ts => readParams ts
    | ts => .ok ([], ts)
  let (e, ts) ← expression ts
  match e with
  | .call callee args =>
    let (main, ts) ← readMacroBody body "endcall" ts
    .ok (.callBody callee args params main, ts)
  | _ => .error (.malformed "call")

/-- The tokens after words that speak of the context, which mean nothing. -/
def skipContext : List Token → Except Fault (List Token)
  | .name ['w', 'i', 't', 'h'] :: ts | .name ['w', 'i', 't', 'h', 'o', 'u', 't'] :: ts => expectWord "context" ts
  | ts => .ok ts

/-- The tokens after the names that are imported from a template. -/
def skipImports : Nat → Bool → List Token → Except Fault (List Token)
  | 0, _, _ => .error (.malformed "name")
  | fuel + 1, first, ts =>
    if ts.head? = some .tagClose then .ok ts
    else do
      let ts ← if first then .ok ts else expectMark "," ts
      if ts.head? = some .tagClose then .ok ts
      else
        let (_, ts) ← readNewName ts
        match ts with
        | .name ['a', 's'] :: ts =>
          let (_, ts) ← readNewName ts
          skipImports fuel false ts
        | ts => skipImports fuel false ts

/-- The statement of a tag, after the word it starts with. -/
def readStmt (body : ReadBody) (word : Text) : Read Stmt := fun ts =>
  match String.ofList word with
  | "for" => readLoop body ts
  | "if" => do
    let (test, ts) ← expression ts
    readArms body test (ts.length + 1) ts
  | "set" => readSet body ts
  | "with" => do
    let (assigns, ts) ← readAssigns (ts.length + 1) ts
    let (main, ts) ← body ["endwith"] (← endTag ts)
    .ok (.scope assigns main, ts.drop 1)
  | "macro" => readMacro body ts
  | "call" => readCallBody body ts
  | "filter" => do
    let (filters, ts) ← readFilterRow (ts.length + 1) ts
    let (main, ts) ← body ["endfilter"] (← endTag ts)
    .ok (.filtered filters main, ts.drop 1)
  | "autoescape" => do
    let (mode, ts) ← expression ts
    let (main, ts) ← body ["endautoescape"] (← endTag ts)
    .ok (.escaping mode main, ts.drop 1)
  | "block" => do
    let (n, ts) ← readName ts
    let (main, ts) ← body ["endblock"] (← endTag ts)
    match ts with
    | _ :: .name m :: ts => if m = n then .ok (.block n main, ts) else .error (.malformed n)
    | ts => .ok (.block n main, ts.drop 1)
  | "include" => do
    let (e, ts) ← expression ts
    match ← skipContext ts with
    | .name ['i', 'g', 'n', 'o', 'r', 'e'] :: ts => do
      .ok (.fetch e true, ← skipContext (← expectWord "missing" ts))
    | ts => .ok (.fetch e false, ts)
  | "extends" => do
    let (e, ts) ← expression ts
    .ok (.fetch e false, ts)
  | "import" => do
    let (e, ts) ← expression ts
    let (_, ts) ← expression (← expectWord "as" ts)
    .ok (.fetch e false, ← skipContext ts)
  | "from" => do
    let (e, ts) ← expression ts
    let ts ← expectWord "import" ts
    .ok (.fetch e false, ← skipImports (ts.length + 1) true ts)
  | "do" => do
    let (e, ts) ← expression ts
    match e with
    | .call .. => .ok (.eval e, ts)
    | _ => .error (.malformed "call")
  | _ => .error (.unknown "statement" word)

/-- Statements up to a tag that starts with one of some words, or up to the
end where there are none. -/
def readBody (nested : ReadBody) (words : List Text) : Nat → Read (List Stmt)
  | 0, _ => .error .tooDeep
  | fuel + 1, ts =>
    match ts with
    | [] => if words.isEmpty then .ok ([], []) else .error (.malformed "closing tag")
    | .text t :: ts => do
      let (rest, ts) ← readBody nested words fuel ts
      .ok (.text t :: rest, ts)
    | .showOpen :: ts => do
      let (e, ts) ← expression ts
      let ts ← expect .showClose "end of tag" ts
      let (rest, ts) ← readBody nested words fuel ts
      .ok (.emit e :: rest, ts)
    | .tagOpen :: .name word :: ts =>
      if words.contains word then .ok ([], .name word :: ts)
      else do
        let (s, ts) ← readStmt nested word ts
        let ts ← endTag ts
        let (rest, ts) ← readBody nested words fuel ts
        .ok (s :: rest, ts)
    | _ => .error (.malformed "statement")

/-- Statements of a given depth of nesting. -/
def readStmts : Nat → ReadBody
  | 0, _, _ => .error .tooDeep
  | depth + 1, words, ts => readBody (readStmts depth) words (ts.length + 1) ts

/-- The statements of a template, in which no two blocks have one name. -/
def parse (t : Text) : Except Fault (List Stmt) := do
  let ts ← tokens t
  let (stmts, _) ← readStmts (ts.length + 1) [] ts
  let names := (blocksIn stmts).map (·.1)
  if names.eraseDups.length = names.length then .ok stmts else .error (.malformed "another name of a block")

end Template
end DocScribe
