/-
Searching a text: the leftmost match from a place on, every match of a text
from left to right without overlap, and the pieces of a text between them.
-/
import DocScribe.Pattern.Match

namespace DocScribe

/-- A match of a pattern: the part of the text it covers, and the groups it
remembers. -/
structure Match where
  span : Span
  groups : List (Text × Span)

/-- The part remembered under a name; the latest counts. -/
def Match.group? (m : Match) (name : Text) : Option Span :=
  (m.groups.find? fun g => g.1 == name).map (·.2)

namespace Pattern

/-- The preferred match at a place. -/
def matchAt? (p : Pattern) (place : Cursor) : Option Match :=
  p.run ⟨place, []⟩ fun e => some ⟨⟨place, e.place⟩, e.groups⟩

/-- The preferred match at the first place, from the start of `rest` on, that
has one. -/
def findFrom (p : Pattern) (prev : Option Char) (offset : Nat) : Text → Option Match
  | [] => p.matchAt? ⟨prev, [], offset⟩
  | c :: rest =>
    match p.matchAt? ⟨prev, c :: rest, offset⟩ with
    | some m => some m
    | none => findFrom p (some c) (offset + c.utf8Size) rest

/-- The leftmost match from a place on. -/
def find? (p : Pattern) (place : Cursor) : Option Match := p.findFrom place.prev place.offset place.rest

/-- The next match after one that ended at `place`. An empty match there is
passed over. -/
def findNext? (p : Pattern) (place : Cursor) : Option Match :=
  match p.find? place with
  | none => none
  | some m =>
    if m.span.stop = place.offset then
      match place.rest with
      | [] => none
      | c :: rest => p.find? (place.step c rest)
    else some m

/-- The matches after one that ended at `place`; `fuel` bounds their number. -/
def matchesAfter (p : Pattern) : Nat → Cursor → List Match
  | 0, _ => []
  | fuel + 1, place =>
    match p.findNext? place with
    | none => []
    | some m => m :: matchesAfter p fuel m.span.last

/-- Every match in a text, from left to right and without overlap. -/
def allMatches (p : Pattern) (t : Text) : List Match :=
  match p.find? (Cursor.start t) with
  | none => []
  | some m => m :: p.matchesAfter t.length m.span.last

/-- Whether a pattern can match a text from its start to its end. -/
def coversAll (p : Pattern) (t : Text) : Bool :=
  (p.run ⟨Cursor.start t, []⟩ fun e => if e.place.rest.isEmpty then some () else none).isSome

/-- The pieces of a text from a place on that lie between given matches. -/
def piecesBetween (place : Cursor) : List Match → List Text
  | [] => [place.rest]
  | m :: ms => place.textTo m.span.first :: piecesBetween m.span.last ms

/-- The pieces of a text between the matches of a pattern. -/
def split (p : Pattern) (t : Text) : List Text := piecesBetween (Cursor.start t) (p.allMatches t)

end Pattern
end DocScribe
