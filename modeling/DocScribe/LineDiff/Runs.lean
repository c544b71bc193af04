/-
Runs of kept, dropped and added lines, and how they are moved together.

Among the ways of writing the same edit the one is taken where runs are
merged and additions stand as far down as they can.
-/
import DocScribe.LineDiff.Snake

namespace DocScribe
namespace LineDiff

/-- A run of lines of one sort. -/
inductive Run where
  | keep (lines : List Text)
  | drop (lines : List Text)
  | add (lines : List Text)

/-- The lines that two lists start with, and what is left of each. -/
def commonLead : List Text → List Text → List Text × List Text × List Text
  | a :: as, b :: bs =>
    if a = b then
      let (common, as, bs) := commonLead as bs
      (a :: common, as, bs)
    else ([], a :: as, b :: bs)
  | as, bs => ([], as, bs)

/-- The lines that two lists end with, and what is left of each. -/
def commonEnd (as bs : List Text) : List Text × List Text × List Text :=
  let (common, as, bs) := commonLead as.reverse bs.reverse
  (common.reverse, as.reverse, bs.reverse)

/-- A run of kept lines, when there are any. -/
def keepIfAny (lines : List Text) : List Run := if lines.isEmpty then [] else [.keep lines]

/-- The runs of a shortest edit; `fuel` bounds how often it is cut in two. -/
def runs : Nat → List Text → List Text → List Run
  | 0, old, new => [.drop old, .add new]
  | fuel + 1, old, new =>
    let (lead, old, new) := commonLead old new
    let (tail, old, new) := commonEnd old new
    let inner :=
      match old, new with
      | [], [] => []
      | old, [] => [.drop old]
      | [], new => [.add new]
      | old, new =>
        match cut? old new with
        | some (x, y) => runs fuel (old.take x) (new.take y) ++ runs fuel (old.drop x) (new.drop y)
        | none => [.drop old, .add new]
    keepIfAny lead ++ inner ++ keepIfAny tail

/-- A run among others: those before it from the nearest on, its lines, and
those after it. -/
structure Focus where
  before : List Run
  lines : List Text
  after : List Run

/-- Kept lines put before some runs. -/
def keepBefore (lines : List Text) : List Run → List Run
  | .keep more :: rest => .keep (lines ++ more) :: rest
  | rest => .keep lines :: rest

/-- Kept lines put after some runs, the nearest of which is the first. -/
def keepAfter (lines : List Text) : List Run → List Run
  | .keep more :: rest => .keep (more ++ lines) :: rest
  | rest => .keep lines :: rest

/-- A run moved up as far as it can; `adds` says whether it adds lines. Added
lines move over kept ones that they end with, runs that meet are merged, and
added and dropped lines change places. -/
def moveUp (adds : Bool) : Nat → Focus → Focus
  | 0, f => f
  | fuel + 1, f =>
    match f.before with
    | [] => f
    | .keep kept :: before =>
      let (common, rest, lines) := if adds then commonEnd kept f.lines else ([], kept, f.lines)
      if !common.isEmpty then
        moveUp adds fuel
          ⟨keepIfAny rest ++ before, common ++ lines, keepBefore common f.after⟩
      else if kept.isEmpty then moveUp adds fuel { f with before }
      else f
    | .drop lines :: before =>
      if adds then moveUp adds fuel { f with before, after := .drop lines :: f.after }
      else moveUp adds fuel { f with before, lines := lines ++ f.lines }
    | .add lines :: before =>
      if adds then moveUp adds fuel { f with before, lines := lines ++ f.lines }
      else moveUp adds fuel { f with before, after := .add lines :: f.after }

/-- A run moved down as far as it can, in the same way. -/
def moveDown (adds : Bool) : Nat → Focus → Focus
  | 0, f => f
  | fuel + 1, f =>
    match f.after with
    | [] => f
    | .keep kept :: after =>
      let (common, rest, lines) := if adds then commonLead kept f.lines else ([], kept, f.lines)
      if !common.isEmpty then
        moveDown adds fuel
          ⟨keepAfter common f.before, lines ++ common, keepIfAny rest ++ after⟩
      else if kept.isEmpty then moveDown adds fuel { f with after }
      else f
    | .drop lines :: after =>
      if adds then moveDown adds fuel { f with after, before := .drop lines :: f.before }
      else moveDown adds fuel { f with after, lines := f.lines ++ lines }
    | .add lines :: after =>
      if adds then moveDown adds fuel { f with after, lines := f.lines ++ lines }
      else moveDown adds fuel { f with after, before := .add lines :: f.before }

/-- Every run of one sort moved up and then down, from the first on; the runs
that are done are given with the latest first. -/
def settleFrom (adds : Bool) (reach : Nat) : Nat → List Run → List Run → List Run
  | 0, done, rest => done.reverse ++ rest
  | _ + 1, done, [] => done.reverse
  | fuel + 1, done, run :: rest =>
    let move (lines : List Text) : Focus := moveDown adds reach (moveUp adds reach ⟨done, lines, rest⟩)
    match adds, run with
    | true, .add lines =>
      let f := move lines
      settleFrom adds reach fuel (.add f.lines :: f.before) f.after
    | false, .drop lines =>
      let f := move lines
      settleFrom adds reach fuel (.drop f.lines :: f.before) f.after
    | _, run => settleFrom adds reach fuel (run :: done) rest

/-- How many lines and runs there are. -/
def extent (rs : List Run) : Nat :=
  2 * rs.length + (rs.flatMap fun
    | .keep lines | .drop lines | .add lines => lines).length

/-- The runs with first the dropped and then the added lines settled. -/
def settle (rs : List Run) : List Run :=
  let n := 2 * extent rs + 2
  settleFrom true n n [] (settleFrom false n n [] rs)

end LineDiff
end DocScribe
