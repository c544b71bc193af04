/-
Sessions: the candidates of one kind in one file, one to a name.

A candidate whose name is taken replaces the earlier one and keeps its place.
`Session.index` remembers the place of each name.
-/
import DocScribe.Scan.Candidate

namespace DocScribe

/-- The candidates of one kind in one file. -/
structure Session where
  file : Path
  kind : Kind
  candidates : List Candidate
  /-- The place of each name among the candidates. -/
  index : List (Text × Nat)

namespace Session

/-- A session without candidates. -/
def empty (file : Path) (kind : Kind) : Session := ⟨file, kind, [], []⟩

/-- One more candidate; the latest of a name counts. -/
def insert (s : Session) (c : Candidate) : Session :=
  match s.index.lookup c.name with
  | some i => { s with candidates := s.candidates.set i c }
  | none =>
    { s with
      candidates := s.candidates ++ [c]
      index := s.index ++ [(c.name, s.candidates.length)] }

/-- The candidate of a name. -/
def get? (s : Session) (name : Text) : Option Candidate :=
  (s.index.lookup name).bind fun i => s.candidates[i]?

/-- A block given to the candidate at a place, if there is one. -/
def attach (s : Session) (i : Nat) (b : Block) : Session :=
  { s with candidates := s.candidates.modify i fun c => { c with block := some b } }

/-- The session with all candidates dropped. -/
def clear (s : Session) : Session := { s with candidates := [], index := [] }

def names (s : Session) : List Text := s.candidates.map (·.name)

/-- The blocks of the candidates that have one. -/
def blocks (s : Session) : List Block := s.candidates.filterMap (·.block)

def isEmpty (s : Session) : Bool := s.candidates.isEmpty

end Session
end DocScribe
