/-
Matching: where a pattern that is tried at a place ends.

`Pattern.ends` lists every end in the order of preference, with the groups
remembered on the way. `Pattern.run` looks for the first end that some
continuation accepts, without building the list; `run_eq_findSome?_ends` says
that this is what it does.
-/
import DocScribe.Pattern.Basic

namespace DocScribe

/-- A place in a text: the character before it, the text after it, and how
many bytes lie before it. -/
structure Cursor where
  prev : Option Char
  rest : Text
  offset : Nat
  deriving DecidableEq

namespace Cursor

/-- The start of a text. -/
def start (t : Text) : Cursor := ⟨none, t, 0⟩

/-- The place after the next character. -/
def step (here : Cursor) (c : Char) (rest : Text) : Cursor := ⟨some c, rest, here.offset + c.utf8Size⟩

/-- The text between a place and a later one. -/
def textTo (a b : Cursor) : Text := a.rest.take (a.rest.length - b.rest.length)

end Cursor

/-- A part of a text. -/
structure Span where
  first : Cursor
  last : Cursor
  deriving DecidableEq

namespace Span

def start (s : Span) : Nat := s.first.offset

def stop (s : Span) : Nat := s.last.offset

def text (s : Span) : Text := s.first.textTo s.last

end Span

/-- A place that matching has reached, with the groups remembered so far, the
latest first. -/
structure Trail where
  place : Cursor
  groups : List (Text × Span)

namespace Anchor

/-- Whether a set holds the character of a place, if there is one. -/
def isIn (set : CharSet) : Option Char → Bool
  | some c => set.mem c
  | none => false

/-- Whether a condition holds at a place. -/
def holds (a : Anchor) (here : Cursor) : Bool :=
  let prev := here.prev
  let next := here.rest.head?
  match a with
  | startText => prev.isNone
  | endText => next.isNone
  | startLine => prev.isNone || prev == some '\n'
  | endLine => next.isNone || next == some '\n'
  | startLineCrlf => prev.isNone || prev == some '\n' || (prev == some '\r' && next != some '\n')
  | endLineCrlf => next.isNone || next == some '\r' || (next == some '\n' && prev != some '\r')
  | wordEdge w => isIn w prev != isIn w next
  | noWordEdge w => isIn w prev == isIn w next
  | wordStart w => !isIn w prev && isIn w next
  | wordEnd w => isIn w prev && !isIn w next
  | wordStartHalf w => !isIn w prev
  | wordEndHalf w => !isIn w next

end Anchor

namespace Pattern

/-- The ends of further occurrences of a repeated part from a place where one
has ended; an occurrence that takes up no text does not count. `fuel` bounds
the number of occurrences. -/
def moreEnds (greedy : Bool) (body : Trail → List Trail) : Nat → Trail → List Trail
  | 0, s => [s]
  | fuel + 1, s =>
    let further := (body s).flatMap fun e =>
      if e.place.offset = s.place.offset then [] else moreEnds greedy body fuel e
    if greedy then further ++ [s] else s :: further

/-- Every end of a pattern tried at a place, in the order of preference. -/
def ends : Pattern → Trail → List Trail
  | empty, s => [s]
  | chars set, s =>
    match s.place.rest with
    | [] => []
    | c :: rest => if set.mem c then [{ s with place := s.place.step c rest }] else []
  | anchor a, s => if a.holds s.place then [s] else []
  | seq a b, s => (a.ends s).flatMap b.ends
  | alt a b, s => a.ends s ++ b.ends s
  | plus greedy body, s =>
    (body.ends s).flatMap fun e =>
      if e.place.offset = s.place.offset then [e]
      else moreEnds greedy body.ends e.place.rest.length e
  | group name body, s =>
    (body.ends s).map fun e => { e with groups := (name, ⟨s.place, e.place⟩) :: e.groups }

/-- The first answer of a continuation at the ends of further occurrences. -/
def runMore {β : Type} (greedy : Bool) (body : Trail → (Trail → Option β) → Option β)
    (k : Trail → Option β) : Nat → Trail → Option β
  | 0, s => k s
  | fuel + 1, s =>
    if greedy then
      body s (fun e =>
        if e.place.offset = s.place.offset then none else runMore greedy body k fuel e) <|> k s
    else
      k s <|> body s (fun e =>
        if e.place.offset = s.place.offset then none else runMore greedy body k fuel e)

/-- The first answer of a continuation at the ends of a pattern. -/
def run {β : Type} : Pattern → Trail → (Trail → Option β) → Option β
  | empty, s, k => k s
  | chars set, s, k =>
    match s.place.rest with
    | [] => none
    | c :: rest => if set.mem c then k { s with place := s.place.step c rest } else none
  | anchor a, s, k => if a.holds s.place then k s else none
  | seq a b, s, k => a.run s fun e => b.run e k
  | alt a b, s, k => a.run s k <|> b.run s k
  | plus greedy body, s, k =>
    body.run s fun e =>
      if e.place.offset = s.place.offset then k e
      else runMore greedy body.run k e.place.rest.length e
  | group name body, s, k =>
    body.run s fun e => k { e with groups := (name, ⟨s.place, e.place⟩) :: e.groups }

theorem findSome?_flatMap {α γ β : Type} (f : α → List γ) (k : γ → Option β) (l : List α) :
    (l.flatMap f).findSome? k = l.findSome? fun a => (f a).findSome? k := by
  induction l with
  | nil => rfl
  | cons a l ih =>
    simp only [List.flatMap_cons, List.findSome?_append, List.findSome?_cons, ih]
    cases (f a).findSome? k <;> rfl

theorem runMore_eq {β : Type} (greedy : Bool) {bodyRun : Trail → (Trail → Option β) → Option β}
    {body : Trail → List Trail} (h : ∀ s k, bodyRun s k = (body s).findSome? k)
    (k : Trail → Option β) (fuel : Nat) (s : Trail) :
    runMore greedy bodyRun k fuel s = (moreEnds greedy body fuel s).findSome? k := by
  induction fuel generalizing s with
  | zero => simp [runMore, moreEnds]
  | succ fuel ih =>
    have hstep : (fun e : Trail =>
        if e.place.offset = s.place.offset then none else runMore greedy bodyRun k fuel e) =
        fun e => (if e.place.offset = s.place.offset then []
          else moreEnds greedy body fuel e).findSome? k := by
      funext e
      split <;> simp [ih]
    simp only [runMore, moreEnds, h, hstep]
    cases greedy <;>
      simp only [if_true, Bool.false_eq_true, if_false, List.findSome?_append, List.findSome?_cons,
        List.findSome?_nil, findSome?_flatMap]
    · cases k s <;> rfl
    · cases k s <;> simp

/-- **Running a pattern finds the most preferred end that the continuation
accepts.** -/
theorem run_eq_findSome?_ends {β : Type} (p : Pattern) (s : Trail) (k : Trail → Option β) :
    p.run s k = (p.ends s).findSome? k := by
  induction p generalizing s k with
  | empty => simp [run, ends]
  | chars set =>
    simp only [run, ends]
    split
    · rfl
    · split <;> simp
  | anchor a =>
    simp only [run, ends]
    split <;> simp
  | seq a b iha ihb =>
    simp only [run, ends, iha, findSome?_flatMap]
    congr 1
    funext e
    exact ihb e k
  | alt a b iha ihb => simp [run, ends, iha, ihb, List.findSome?_append]
  | plus greedy body ih =>
    simp only [run, ends, ih, findSome?_flatMap]
    congr 1
    funext e
    split
    · simp
    · exact runMore_eq greedy (fun s k => ih s k) k _ e
  | group name body ih => simp [run, ends, ih, List.findSome?_map, Function.comp_def]

end Pattern
end DocScribe
