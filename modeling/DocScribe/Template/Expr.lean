/-
Templates as trees: expressions and statements.
-/
import DocScribe.Text.Basic

namespace DocScribe
namespace Template

/-- A literal value. -/
inductive Literal where
  | none
  | bool (b : Bool)
  | int (n : Nat)
  /-- The number `digits * 10 ^ scale`. -/
  | real (digits : Nat) (scale : Int)
  | str (t : Text)

/-- The operations between two values. -/
inductive BinaryOp where
  | add | sub | mul | div | floorDiv | rem | pow | concat
  | eq | ne | lt | le | gt | ge | within

/-- An expression. Arguments of calls, filters and tests may be named. -/
inductive Expr where
  | literal (l : Literal)
  | var (name : Text)
  | list (items : List Expr)
  | map (entries : List (Expr × Expr))
  | neg (e : Expr)
  | not (e : Expr)
  | binary (op : BinaryOp) (a b : Expr)
  | and (a b : Expr)
  | or (a b : Expr)
  | cond (test yes : Expr) (no : Option Expr)
  | attr (e : Expr) (name : Text)
  | item (e index : Expr)
  | slice (e : Expr) (start stop step : Option Expr)
  | call (e : Expr) (args : List (Option Text × Expr))
  | filter (name : Text) (e : Expr) (args : List (Option Text × Expr))
  | test (name : Text) (e : Expr) (args : List (Option Text × Expr))

/-- Arguments, possibly named. -/
abbrev Args := List (Option Text × Expr)

/-- What is assigned to: a variable, an entry of a namespace, or several
targets at once. -/
inductive Target where
  | name (t : Text)
  | entry (space : Expr) (key : Text)
  | row (targets : List Target)

/-- A parameter of a macro, with its default. -/
abbrev Param := Text × Option Expr

/-- A statement. -/
inductive Stmt where
  | text (t : Text)
  | emit (e : Expr)
  | branch (arms : List (Expr × List Stmt)) (otherwise : List Stmt)
  | loop (target : Target) (items : Expr) (guard : Option Expr) (recursive : Bool) (body otherwise : List Stmt)
  | assign (target : Target) (value : Expr)
  | capture (target : Target) (filters : List (Text × Args)) (body : List Stmt)
  | scope (assigns : List (Target × Expr)) (body : List Stmt)
  | define (name : Text) (params : List Param) (body : List Stmt)
  /-- A call whose callee can call the body back. -/
  | callBody (e : Expr) (args : Args) (params : List Param) (body : List Stmt)
  | filtered (filters : List (Text × Args)) (body : List Stmt)
  /-- A body in which what is emitted is made safe for markup, or is not. -/
  | escaping (mode : Expr) (body : List Stmt)
  | block (name : Text) (body : List Stmt)
  /-- Another template taken in; there are none. -/
  | fetch (name : Expr) (optional : Bool)
  | eval (e : Expr)

/-- Whether an expression is a variable of a given name. -/
def Expr.isVar (x : Text) : Expr → Bool
  | .var name => name == x
  | _ => false

/-- Whether expressions mention a variable. -/
def Expr.mentions (x : Text) : Expr → Bool
  | .literal _ => false
  | .var name => name == x
  | .list items => listMentions items
  | .map entries => entriesMention entries
  | .neg e | .not e | .attr e _ => e.mentions x
  | .binary _ a b | .and a b | .or a b | .item a b => a.mentions x || b.mentions x
  | .cond holds yes no => holds.mentions x || yes.mentions x || optionMentions no
  | .slice e start stop step =>
    e.mentions x || optionMentions start || optionMentions stop || optionMentions step
  | .call e args | .filter _ e args | .test _ e args => e.mentions x || argsMention args
where
  listMentions : List Expr → Bool
    | [] => false
    | e :: es => e.mentions x || listMentions es
  entriesMention : List (Expr × Expr) → Bool
    | [] => false
    | (k, v) :: es => k.mentions x || v.mentions x || entriesMention es
  optionMentions : Option Expr → Bool
    | none => false
    | some e => e.mentions x
  argsMention : Args → Bool
    | [] => false
    | (_, e) :: es => e.mentions x || argsMention es

/-- Whether one of some filters mentions a variable. -/
def filtersMention (x : Text) (filters : List (Text × Args)) : Bool :=
  filters.any fun f => f.2.any fun a => a.2.mentions x

/-- Whether a default of some parameters mentions a variable. -/
def paramsMention (x : Text) (params : List Param) : Bool :=
  params.any fun p => (p.2.map (Expr.mentions x)).getD false

mutual

/-- Whether a statement mentions a variable. -/
def Stmt.mentions (x : Text) : Stmt → Bool
  | .text _ => false
  | .emit e | .assign _ e | .fetch e _ | .eval e => e.mentions x
  | .branch arms otherwise => armsMention x arms || stmtsMention x otherwise
  | .loop _ items guard _ body otherwise =>
    items.mentions x || (guard.map (Expr.mentions x)).getD false || stmtsMention x body ||
      stmtsMention x otherwise
  | .capture _ filters body | .filtered filters body => filtersMention x filters || stmtsMention x body
  | .scope assigns body => (assigns.any fun a => a.2.mentions x) || stmtsMention x body
  | .define _ params body => paramsMention x params || stmtsMention x body
  | .callBody e args params body =>
    e.mentions x || (args.any fun a => a.2.mentions x) || paramsMention x params || stmtsMention x body
  | .escaping mode body => mode.mentions x || stmtsMention x body
  | .block _ body => stmtsMention x body

def stmtsMention (x : Text) : List Stmt → Bool
  | [] => false
  | s :: ss => s.mentions x || stmtsMention x ss

def armsMention (x : Text) : List (Expr × List Stmt) → Bool
  | [] => false
  | (e, body) :: arms => e.mentions x || stmtsMention x body || armsMention x arms

end

mutual

/-- The blocks in a statement with their names. -/
def Stmt.blocks : Stmt → List (Text × List Stmt)
  | .branch arms otherwise => armBlocks arms ++ blocksIn otherwise
  | .loop _ _ _ _ body otherwise => blocksIn body ++ blocksIn otherwise
  | .capture _ _ body | .scope _ body | .define _ _ body | .callBody _ _ _ body | .filtered _ body
  | .escaping _ body => blocksIn body
  | .block name body => (name, body) :: blocksIn body
  | _ => []

/-- The blocks in some statements. -/
def blocksIn : List Stmt → List (Text × List Stmt)
  | [] => []
  | s :: ss => s.blocks ++ blocksIn ss

def armBlocks : List (Expr × List Stmt) → List (Text × List Stmt)
  | [] => []
  | (_, body) :: arms => blocksIn body ++ armBlocks arms

end

end Template
end DocScribe
