/-
Reading globs.

`?` and `*` are wildcards, `[...]` is a class, and the branches of a choice
stand between braces with commas between them. A double star between slashes
or ends is about directories, elsewhere it is two stars. A backslash takes
the special meaning from the next character.
-/
import DocScribe.Glob.Basic

namespace DocScribe
namespace Glob

/-- Why a text is not a glob. -/
inductive Fault where
  | unclosedClass
  | badRange (lo hi : Char)
  | unopenedChoice
  | unclosedChoice
  | danglingEscape
  deriving DecidableEq

/-- The wording of a fault. -/
def Fault.message : Fault → Text
  | unclosedClass => "unclosed character class; missing ']'"
  | badRange lo hi => "invalid range; '" ++ [lo] ++ "' > '" ++ [hi] ++ "'"
  | unopenedChoice => "unopened alternate group; missing '\x7b'"
  | unclosedChoice => "unclosed alternate group; missing '\x7d'"
  | danglingEscape => "dangling '\\'"

/-- How globs are read. -/
structure Options where
  /-- Whether wildcards stand for slashes too. -/
  slashes : Bool
  /-- Whether a class that is never closed is taken as it stands. -/
  openClasses : Bool

/-- A level of choices: the finished branches, and the parts of the current
one with the latest first. -/
structure Level where
  branches : List (List Token) := []
  current : List Token := []

/-- What has been read: the current level, and those around it from the inside
out. -/
structure Draft where
  level : Level := {}
  outer : List Level := []

namespace Draft

/-- One more part. -/
def push (d : Draft) (t : Token) : Draft := { d with level := { d.level with current := t :: d.level.current } }

/-- Two stars that mean nothing more. -/
def pushStars (d : Draft) : Draft := (d.push .anyRun).push .anyRun

/-- Whether a choice is open. -/
def inChoice (d : Draft) : Bool := !d.outer.isEmpty

/-- The opening brace of a choice. -/
def openChoice (d : Draft) : Draft := { level := {}, outer := d.level :: d.outer }

/-- The comma between two branches. -/
def nextBranch (d : Draft) : Draft :=
  { d with level := { branches := d.level.branches ++ [d.level.current.reverse], current := [] } }

/-- The closing brace of a choice. -/
def closeChoice (d : Draft) : Except Fault Draft :=
  match d.outer with
  | [] => .error .unopenedChoice
  | level :: outer =>
    let branches := d.level.branches ++ [d.level.current.reverse]
    .ok { level := { level with current := .choice branches :: level.current }, outer }

/-- The double star of a path of directories: what it stands for replaces the
slash before it. -/
def pushDirs (d : Draft) (last : Bool) : Draft :=
  match d.level.current with
  | .leadingDirs :: _ | .everythingBelow :: _ => d
  | before =>
    let dirs := if last then Token.everythingBelow else .innerDirs
    { d with level := { d.level with current := dirs :: before.tail } }

end Draft

/-- The ranges of a class, with the latest first, and how many characters it
takes up; none when it is not closed. `first` says that nothing was read yet,
`pending` that the latest range waits for its end. -/
def classBody (first pending : Bool) (ranges : List (Char × Char)) (taken : Nat) :
    List Char → Except Fault (Option (List (Char × Char) × Nat))
  | [] => .ok none
  | c :: cs =>
    if c = ']' && !first then .ok (some (if pending then ('-', '-') :: ranges else ranges, taken + 1))
    else if c = '-' && !first && !pending then classBody false true ranges (taken + 1) cs
    else
      match pending, ranges with
      | true, (lo, _) :: ranges =>
        if c.val < lo.val then .error (.badRange lo c)
        else classBody false false ((lo, c) :: ranges) (taken + 1) cs
      | _, ranges => classBody false false ((c, c) :: ranges) (taken + 1) cs

/-- A class after its bracket, and how many characters it takes up. -/
def charClass (cs : List Char) : Except Fault (Option (Token × Nat)) :=
  let negated := cs.head? = some '!' || cs.head? = some '^'
  let skip := if negated then 1 else 0
  match classBody true false [] 0 (cs.drop skip) with
  | .ok (some (ranges, taken)) => .ok (some (.oneOf negated ranges.reverse, skip + taken))
  | .ok none => .ok none
  | .error fault => .error fault

/-- What a double star comes to, given the character before it and the text
after it, and how many characters of that text it takes up. -/
def doubleStar (d : Draft) (before : Option Char) (after : List Char) : Draft × Nat :=
  let slashOrEnd := after.head? = none || after.head? = some '/'
  if d.level.current.isEmpty then
    if slashOrEnd then (d.push .leadingDirs, 1) else (d.pushStars, 0)
  else if before = some '/' || (d.inChoice && (before = some ',' || before = some '\x7b')) then
    match after.head? with
    | none => (d.pushDirs true, 0)
    | some c =>
      if c = '/' then (d.pushDirs false, 1)
      else if d.inChoice && (c = ',' || c = '\x7d') then (d.pushDirs true, 0)
      else (d.pushStars, 0)
  else (d.pushStars, 0)

/-- The last of the characters that were taken up. -/
def lastTaken (before : Char) (taken : Nat) (cs : List Char) : Option Char :=
  ((cs.take taken).getLast?).getD before

/-- The parts of a glob from a character on, given the character before it.
`brackets` says whether brackets still open classes. -/
def readFrom (o : Options) (brackets : Bool) (before : Option Char) (d : Draft) :
    List Char → Except Fault Draft
  | [] => .ok d
  | c :: cs =>
    match c with
    | '?' => readFrom o brackets (some c) (d.push .anyOne) cs
    | '*' =>
      match cs with
      | '*' :: cs =>
        let (d, taken) := doubleStar d before cs
        readFrom o brackets (lastTaken c taken cs) d (cs.drop taken)
      | cs => readFrom o brackets (some c) (d.push .anyRun) cs
    | '[' =>
      if brackets then
        match charClass cs with
        | .ok (some (token, taken)) =>
          readFrom o brackets (lastTaken c taken cs) (d.push token) (cs.drop taken)
        | .ok none =>
          if o.openClasses then readFrom o false (some c) (d.push (.literal c)) cs
          else .error .unclosedClass
        | .error fault => .error fault
      else readFrom o brackets (some c) (d.push (.literal c)) cs
    | '\x7b' => readFrom o brackets (some c) d.openChoice cs
    | '\x7d' =>
      match d.closeChoice with
      | .ok d => readFrom o brackets (some c) d cs
      | .error fault => .error fault
    | ',' =>
      readFrom o brackets (some c) (if d.inChoice then d.nextBranch else d.push (.literal c)) cs
    | '\\' =>
      match cs with
      | [] => .error .danglingEscape
      | e :: cs => readFrom o brackets (some e) (d.push (.literal e)) cs
    | c => readFrom o brackets (some c) (d.push (.literal c)) cs
termination_by cs => cs.length
decreasing_by all_goals (simp_wf; try omega)

end Glob

/-- The glob that a text writes. -/
def Glob.parse (o : Glob.Options) (t : Text) : Except Glob.Fault Glob :=
  match Glob.readFrom o true none {} t with
  | .ok d => if d.inChoice then .error .unclosedChoice else .ok (.ofTokens o.slashes d.level.current.reverse)
  | .error fault => .error fault

end DocScribe
