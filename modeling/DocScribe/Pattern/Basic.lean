/-
Patterns over texts.

A pattern is tried at a place of a text and ends at other places. Choices are
ordered: the first branch of `alt` is preferred, a greedy repetition prefers
to go on, a lazy one prefers to stop.
-/
import DocScribe.Pattern.CharSet

namespace DocScribe

/-- Conditions on the place between two characters. -/
inductive Anchor where
  | startText
  | endText
  | startLine
  | endLine
  | startLineCrlf
  | endLineCrlf
  /-- A place with a word character on exactly one side. -/
  | wordEdge (word : CharSet)
  | noWordEdge (word : CharSet)
  | wordStart (word : CharSet)
  | wordEnd (word : CharSet)
  /-- A place with no word character before it. -/
  | wordStartHalf (word : CharSet)
  /-- A place with no word character after it. -/
  | wordEndHalf (word : CharSet)
  deriving DecidableEq

/-- A pattern. -/
inductive Pattern where
  | empty
  | chars (set : CharSet)
  | anchor (a : Anchor)
  | seq (a b : Pattern)
  | alt (a b : Pattern)
  /-- One or more times. An occurrence after the first takes up some text. -/
  | plus (greedy : Bool) (body : Pattern)
  /-- A part whose place is remembered under a name. -/
  | group (name : Text) (body : Pattern)
  deriving DecidableEq

namespace Pattern

/-- One character as such. -/
def literal (c : Char) : Pattern := chars (.single c)

/-- A text as such. -/
def literals (t : Text) : Pattern := t.foldr (fun c p => seq (literal c) p) empty

/-- At most one time. -/
def optional (greedy : Bool) (p : Pattern) : Pattern := if greedy then alt p empty else alt empty p

/-- Any number of times. -/
def star (greedy : Bool) (p : Pattern) : Pattern := optional greedy (plus greedy p)

/-- Patterns one after the other. -/
def seqs : List Pattern → Pattern
  | [] => empty
  | [p] => p
  | p :: ps => seq p (seqs ps)

/-- Patterns as alternatives, in the order of preference. -/
def alts : List Pattern → Pattern
  | [] => empty
  | [p] => p
  | p :: ps => alt p (alts ps)

/-- A pattern followed by exactly `n` times another. -/
def timesThen (p : Pattern) : Nat → Pattern → Pattern
  | 0, tail => tail
  | n + 1, tail => seq p (timesThen p n tail)

/-- At most `n` times. -/
def upTo (greedy : Bool) (p : Pattern) : Nat → Pattern
  | 0 => empty
  | n + 1 => optional greedy (seq p (upTo greedy p n))

/-- At least `min` times, and at most `max` times where there is a bound. -/
def repeated (greedy : Bool) (p : Pattern) (min : Nat) : Option Nat → Pattern
  | some max => timesThen p min (upTo greedy p (max - min))
  | none =>
    match min with
    | 0 => star greedy p
    | n + 1 => timesThen p n (plus greedy p)

/-- A measure of the size of a pattern. -/
def weight : Pattern → Nat
  | empty | anchor _ => 1
  | chars set => set.weight
  | seq a b | alt a b => a.weight + b.weight + 1
  | plus _ p | group _ p => p.weight + 1

end Pattern
end DocScribe
