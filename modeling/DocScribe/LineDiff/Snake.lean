/-
Where to cut two lists of lines so that the halves can be compared on their
own.

Two searches walk the grid of line pairs, one from the start and one from the
end. On each diagonal they keep how many old lines the furthest walk with a
given number of edits has passed; where the walks meet, a shortest edit of
the whole can be cut.
-/
import DocScribe.Text.Basic

namespace DocScribe
namespace LineDiff

/-- How many old lines the furthest walk on each diagonal has passed. A
diagonal is the number of old lines passed less that of new lines. -/
structure Front where
  offset : Nat
  reach : Array Nat

namespace Front

/-- A front for diagonals up to a distance from the middle one. -/
def empty (distance : Nat) : Front := ⟨distance + 2, Array.replicate (2 * distance + 5) 0⟩

def get (f : Front) (diagonal : Int) : Nat := f.reach.getD (diagonal + f.offset).toNat 0

def set (f : Front) (diagonal : Int) (passed : Nat) : Front :=
  { f with reach := f.reach.setIfInBounds (diagonal + f.offset).toNat passed }

/-- How many old lines a walk with `edits` edits has passed when it comes to a
diagonal: it comes from the neighbour that is further. -/
def arrive (f : Front) (edits : Nat) (diagonal : Int) : Nat :=
  if diagonal = -edits || (diagonal ≠ edits && f.get (diagonal - 1) < f.get (diagonal + 1)) then
    f.get (diagonal + 1)
  else f.get (diagonal - 1) + 1

end Front

/-- How many lines agree from two places on; `fuel` bounds them. -/
def agreeing (old new : Array Text) : Nat → Nat → Nat → Nat
  | 0, _, _ => 0
  | fuel + 1, x, y =>
    match old[x]?, new[y]? with
    | some a, some b => if a = b then 1 + agreeing old new fuel (x + 1) (y + 1) else 0
    | _, _ => 0

/-- The diagonals that walks with a number of edits can end on, from the
highest down. -/
def diagonals (edits : Nat) : List Int := (List.range (edits + 1)).map fun i : Nat => (edits : Int) - 2 * (i : Int)

/-- How many more old lines than new ones there are. -/
def surplus (old new : Array Text) : Int := (old.size : Int) - new.size

/-- One more edit in the search from the start. It stops where its walk meets
one of the search from the end, and gives the place before the lines that
agree there. -/
def advance (old new : Array Text) (edits : Nat) (back : Front) :
    List Int → Front → Except (Nat × Nat) Front
  | [], f => .ok f
  | k :: ks, f =>
    let x := f.arrive edits k
    let y := ((x : Int) - k).toNat
    let passed := x + agreeing old new old.size x y
    let delta := surplus old new
    if delta % 2 ≠ 0 && (k - delta).natAbs < edits && old.size ≤ passed + back.get (delta - k) then
      .error (x, y)
    else advance old new edits back ks (f.set k passed)

/-- One more edit in the search from the end, whose lines are given from the
last to the first. It stops where its walk meets one of the search from the
start, and gives the place before the lines that agree there. -/
def retreat (dlo wen : Array Text) (edits : Nat) (front : Front) :
    List Int → Front → Except (Nat × Nat) Front
  | [], f => .ok f
  | k :: ks, f =>
    let x := f.arrive edits k
    let y := ((x : Int) - k).toNat
    let agreed := agreeing dlo wen dlo.size x y
    let delta := surplus dlo wen
    if delta % 2 = 0 && (k - delta).natAbs ≤ edits && dlo.size ≤ x + agreed + front.get (delta - k) then
      .error (dlo.size - (x + agreed), wen.size - (y + agreed))
    else retreat dlo wen edits front ks (f.set k (x + agreed))

/-- The two searches in turn, for each number of edits in a list. -/
def searchBoth (old new dlo wen : Array Text) : List Nat → Front → Front → Option (Nat × Nat)
  | [], _, _ => none
  | edits :: rest, front, back =>
    match advance old new edits back (diagonals edits) front with
    | .error cut => some cut
    | .ok front =>
      match retreat dlo wen edits front (diagonals edits) back with
      | .error cut => some cut
      | .ok back => searchBoth old new dlo wen rest front back

/-- Where to cut two lists of lines: how many old and new lines come before
the cut. -/
def cut? (old new : List Text) : Option (Nat × Nat) :=
  let distance := (old.length + new.length + 1) / 2 + 1
  searchBoth old.toArray new.toArray old.reverse.toArray new.reverse.toArray (List.range distance)
    (.empty distance) (.empty distance)

end LineDiff
end DocScribe
