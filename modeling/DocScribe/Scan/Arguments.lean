/-
Argument names: what the pieces of an argument list name.
-/
import DocScribe.Event
import DocScribe.Text.Blank

namespace DocScribe

/-- Whether a character can stand in the name of an argument. -/
def isIdentifierChar (c : Char) : Bool := c.isAlphanum || c == '_'

/-- The first run of letters, digits and underscores of ASCII. -/
def firstIdentifier? (t : Text) : Option Text :=
  match (t.dropWhile fun c => !isIdentifierChar c).takeWhile isIdentifierChar with
  | [] => none
  | name => some name

/-- What one piece of an argument list comes to. -/
inductive ArgumentPiece where
  | dropped
  | named (name : Text)
  | unnamed (token : Text)

/-- Blank pieces and ignored ones are dropped, and so is an ignored name. -/
def argumentPiece (ignore : List Text) (piece : Text) : ArgumentPiece :=
  let token := Text.trim piece
  if token.isEmpty || ignore.contains token then .dropped
  else
    match firstIdentifier? token with
    | none => .unnamed token
    | some name => if ignore.contains name then .dropped else .named name

/-- The argument names of the pieces of a list. -/
def argumentNames (ignore : List Text) (pieces : List Text) : List Text :=
  pieces.filterMap fun piece =>
    match argumentPiece ignore piece with
    | .named name => some name
    | _ => none

/-- The pieces that were left out because they name nothing. -/
def unnamedArguments (ignore : List Text) (pieces : List Text) : List Event :=
  pieces.filterMap fun piece =>
    match argumentPiece ignore piece with
    | .unnamed token => some (.unnamedArgument token)
    | _ => none

end DocScribe
