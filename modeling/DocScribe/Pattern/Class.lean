/-
Classes in brackets: unions of characters, ranges and other classes, and the
operations between them, which bind to the left.
-/
import DocScribe.Pattern.Escape

namespace DocScribe
namespace Pattern

/-- The operations between the parts of a class. -/
inductive ClassOp where
  | inter
  | diff
  | symmDiff

/-- The set that an operation makes of two. -/
def ClassOp.apply : ClassOp → CharSet → CharSet → CharSet
  | inter, a, b => .inter a b
  | diff, a, b => .diff a b
  | symmDiff, a, b => .symmDiff a b

/-- A bracket that is open: whether it is negated, the operation that waits
for its right side, and the union read before the bracket. -/
structure ClassFrame where
  negated : Bool
  pending : Option (ClassOp × CharSet)
  outer : CharSet

/-- The set of a bracket when `union` is its last part. -/
def ClassFrame.combine (f : Flags) (frame : ClassFrame) (union : CharSet) : CharSet :=
  match frame.pending with
  | some (op, lhs) => op.apply (f.fold lhs) (f.fold union)
  | none => union

/-- The set of a bracket that is closed. -/
def ClassFrame.close (f : Flags) (frame : ClassFrame) (union : CharSet) : Except Fault CharSet :=
  let s := f.fold (frame.combine f union)
  f.checked (if frame.negated then .compl s else s)

/-- Hyphens at the start of a bracket, which stand for themselves. -/
def leadingHyphens (f : Flags) : Nat → Text → CharSet → CharSet × Text
  | 0, t, s => (s, t)
  | fuel + 1, t, s =>
    match t with
    | '-' :: rest => leadingHyphens f fuel (f.skip rest) (.union s (.single '-'))
    | _ => (s, t)

/-- What an opening bracket starts: the frame of the new bracket, the union
with the characters that stand for themselves at its start, and the rest. -/
def openClass (f : Flags) (outer : CharSet) (t : Text) : ClassFrame × CharSet × Text :=
  let t := f.skip t
  let (negated, t) := match t with
    | '^' :: rest => (true, f.skip rest)
    | _ => (false, t)
  let (s, rest) := leadingHyphens f t.length t .nothing
  let frame : ClassFrame := ⟨negated, none, outer⟩
  match rest with
  | ']' :: after => if rest.length = t.length then (frame, .single ']', f.skip after) else (frame, s, rest)
  | _ => (frame, s, rest)

/-- A class such as `[:alpha:]`, after its opening bracket: whether it is
negated, its set, and the rest. -/
def posixClass? (t : Text) : Option (Bool × CharSet × Text) :=
  match t with
  | ':' :: t =>
    let (negated, t) := match t with
      | '^' :: rest => (true, rest)
      | _ => (false, t)
    let name := t.takeWhile (· != ':')
    match t.dropWhile (· != ':') with
    | ':' :: ']' :: rest =>
      (CharSet.posix? name).map fun s => (negated, s, rest)
    | _ => none
  | _ => none

/-- One item of a class. -/
def classAtom (f : Flags) : Text → Except Fault (Atom × Text)
  | [] => .error .unclosedClass
  | '\\' :: t => escape f t
  | c :: t => .ok (.char c false, t)

/-- The character of an item that can bound a range. -/
def boundOf (f : Flags) : Atom → Except Fault Char
  | .char c raw =>
    if !f.unicode && c.toNat > 127 && !(raw && c.toNat < 256) then .error .notText else .ok c
  | _ => .error .badRange

/-- The set of an item that stands alone. -/
def setOf (f : Flags) : Atom → Except Fault CharSet
  | .set s => .ok s
  | .anchor _ => .error .badEscape
  | a => do .ok (.single (← boundOf f a))

/-- An item or a range of a class. -/
def classItem (f : Flags) (t : Text) : Except Fault (CharSet × Text) := do
  let (low, t) ← classAtom f t
  match f.skip t with
  | [] => .error .unclosedClass
  | '-' :: rest =>
    match f.skip rest with
    | ']' :: _ | '-' :: _ => .ok (← setOf f low, '-' :: rest)
    | [] => .error .unclosedClass
    | after =>
      let (high, t) ← classAtom f after
      let lo ← boundOf f low
      let hi ← boundOf f high
      if lo.toNat ≤ hi.toNat then .ok (.range lo hi, t) else .error .badRange
  | t => .ok (← setOf f low, t)

/-- The rest of a class inside its open brackets, the innermost first. -/
def classBody (f : Flags) : Nat → List ClassFrame → CharSet → Text → Except Fault (CharSet × Text)
  | 0, _, _, _ => .error .unclosedClass
  | fuel + 1, frames, union, t =>
    let operate (op : ClassOp) (rest : Text) : Except Fault (CharSet × Text) :=
      match frames with
      | [] => .error .unclosedClass
      | frame :: outer =>
        classBody f fuel ({ frame with pending := some (op, frame.combine f union) } :: outer)
          .nothing rest
    match f.skip t with
    | [] => .error .unclosedClass
    | '[' :: rest =>
      match posixClass? rest with
      | some (negated, s, rest) => do
        let s ← f.checked (if negated then .compl (f.fold s) else f.fold s)
        classBody f fuel frames (.union union s) rest
      | none =>
        let (frame, inner, rest) := openClass f union rest
        if frames.length ≥ 250 then .error .tooDeep
        else classBody f fuel (frame :: frames) inner rest
    | ']' :: rest =>
      match frames with
      | [] => .error .unclosedClass
      | [frame] => do .ok (← frame.close f union, rest)
      | frame :: outer => do
        classBody f fuel outer (.union frame.outer (← frame.close f union)) rest
    | '&' :: '&' :: rest => operate .inter rest
    | '-' :: '-' :: rest => operate .diff rest
    | '~' :: '~' :: rest => operate .symmDiff rest
    | t => do
      let (s, rest) ← classItem f t
      classBody f fuel frames (.union union s) rest

/-- A class, after its first bracket. -/
def bracketClass (f : Flags) (t : Text) : Except Fault (CharSet × Text) :=
  let (frame, inner, rest) := openClass f .nothing t
  classBody f (t.length + 1) [frame] inner rest

end Pattern
end DocScribe
