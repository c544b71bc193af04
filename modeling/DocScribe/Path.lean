/-
Paths, as written, and the components they name.

Two paths are the same when their components are, and paths are ordered by
their components. Repeated slashes, slashes at the end and dots inside a path
name no component; a dot at the start of a relative path does.
-/
import DocScribe.Format

namespace DocScribe

/-- A path as it is written. -/
structure Path where
  text : Text
  deriving DecidableEq

/-- What a path names step by step. -/
inductive Component where
  | root
  | current
  | parent
  | name (t : Text)
  deriving DecidableEq

/-- Whether one component comes before another. -/
def Component.lt : Component → Component → Bool
  | .name a, .name b => Text.lt a b
  | .name _, _ => false
  | _, .name _ => true
  | .parent, _ => false
  | _, .parent => true
  | .current, _ => false
  | .root, .current => true
  | .root, .root => false

namespace Path

/-- The component that a piece between slashes names, given whether it is the
first piece and whether the path is absolute. -/
def componentOf (first absolute : Bool) (piece : Text) : Option Component :=
  if piece.isEmpty then (if first && absolute then some .root else none)
  else if piece = ['.'] then (if first then some .current else none)
  else if piece = ['.', '.'] then some .parent
  else some (.name piece)

/-- The pieces of a path between its slashes, each with what it names. -/
def pieces (p : Path) : List (Text × Option Component) :=
  let absolute := p.text.head? = some '/'
  match Text.pieces (· == '/') p.text with
  | [] => []
  | piece :: rest =>
    (piece, componentOf true absolute piece) :: rest.map fun q => (q, componentOf false absolute q)

/-- The components of a path. -/
def components (p : Path) : List Component := p.pieces.filterMap (·.2)

def isAbsolute (p : Path) : Bool := p.text.head? = some '/'

/-- Whether two paths have the same components. -/
def same (p q : Path) : Bool := p.components == q.components

/-- Whether one list of components comes before another or is it. -/
def leComponents : List Component → List Component → Bool
  | [], _ => true
  | _ :: _, [] => false
  | a :: as, b :: bs => if a = b then leComponents as bs else a.lt b

/-- The order of paths. -/
def le (p q : Path) : Bool := leComponents p.components q.components

/-- A path taken from a base: an absolute path stands for itself. -/
def join (base p : Path) : Path :=
  if p.isAbsolute || base.text.isEmpty then p
  else if Text.endsWith base.text ['/'] then ⟨base.text ++ p.text⟩
  else ⟨base.text ++ ['/'] ++ p.text⟩

/-- Whether the components of a path end with those of another. -/
def endsWith (p q : Path) : Bool :=
  q.components.reverse.isPrefixOf p.components.reverse

/-- The pieces that are left when the components of a base are taken off. -/
def dropBase : List Component → List (Text × Option Component) → Option (List (Text × Option Component))
  | [], pieces => some pieces
  | _ :: _, [] => none
  | b :: bs, (_, some c) :: pieces => if b = c then dropBase bs pieces else none
  | b :: bs, (_, none) :: pieces => dropBase (b :: bs) pieces

/-- The rest of a path below a base. -/
def below? (p base : Path) : Option Path :=
  (dropBase base.components p.pieces).map fun pieces =>
    let kept := ((pieces.dropWhile (·.2.isNone)).reverse.dropWhile (·.2.isNone)).reverse
    ⟨Text.join ['/'] (kept.map (·.1))⟩

/-- A path as it is shown below a base. -/
def relativeTo (p base : Path) : Path := (p.below? base).getD p

/-- The name of the file a path leads to. -/
def fileName? (p : Path) : Option Text :=
  match p.components.getLast? with
  | some (.name t) => some t
  | _ => none

/-- The part of a file name after its last dot, unless that dot is its first
character. -/
def extension? (p : Path) : Option Text :=
  p.fileName?.bind fun name =>
    let after := (name.reverse.takeWhile (· != '.')).reverse
    if after.length + 1 < name.length then some after else none

/-- The extension of a path in the form in which extensions are compared. -/
def normalExtension? (p : Path) : Option Text := p.extension?.map normalExtension

end Path
end DocScribe
