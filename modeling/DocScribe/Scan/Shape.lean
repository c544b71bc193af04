/-
The shape of a construct: the tokens that mark the constructs of one kind in
the files of one extension, checked for completeness, and the pattern they
make.
-/
import DocScribe.Failure
import DocScribe.Format
import DocScribe.Pattern.Quote

namespace DocScribe

/-- The tokens around and between the arguments of a method. -/
structure ArgumentTokens where
  opening : Text
  closing : Text
  separator : Text
  /-- The tokens are patterns, not literal text. -/
  regex : Bool
  /-- Arguments that are never documented. -/
  ignore : List Text

/-- The tokens that mark the constructs of one kind. -/
structure Shape where
  kind : Kind
  extension : Text
  indicator : Text
  ending : Text
  ancestry : Option Text
  docOpen : Text
  docClose : Text
  /-- The pattern of an opening delimiter that is already there. -/
  openPattern : Text
  /-- The pattern of a closing delimiter that is already there. -/
  closePattern : Text
  /-- Given for methods only. -/
  arguments : Option ArgumentTokens
  before : Bool
  withinScope : Bool
  regex : Bool
  ignore : List Text

namespace Shape

/-- The tokens a kind of construct needs, with the names of their settings,
in the order in which they are asked for. -/
def required (kind : Kind) (c : ConstructRules) (a : ArgumentRules) : List (Text × Text) :=
  let delimiters : List (Text × Text) := [("doc_open", c.docOpen), ("doc_close", c.docClose)]
  let signature : List (Text × Text) := [("indicator", c.indicator), ("end", c.ending)]
  let list : List (Text × Text) :=
    [("start_parameter", a.opening), ("end_parameter", a.closing), ("parameter_split", a.separator)]
  match kind with
  | .header => delimiters
  | .classDef => delimiters ++ signature
  | .method => delimiters ++ signature ++ list

/-- The shape that rules describe. The first token that is needed and empty
is the failure. A file header always goes above everything else. -/
def ofRules (kind : Kind) (extension : Text) (c : ConstructRules) (a : ArgumentRules) :
    Except Failure Shape :=
  match (required kind c a).find? fun token => token.2.isEmpty with
  | some token => .error (.missingToken extension kind token.1)
  | none => .ok
    { kind, extension
      indicator := c.indicator
      ending := c.ending
      ancestry := c.ancestry.filter fun t => !t.isEmpty
      docOpen := c.docOpen
      docClose := c.docClose
      openPattern := c.docOpenPattern.getD c.docOpen
      closePattern := c.docClosePattern.getD c.docClose
      arguments := if kind = .method then
          some ⟨a.opening, a.closing, a.separator, a.regex, a.ignore⟩ else none
      before := kind = .header || c.before
      withinScope := kind ≠ .header && c.withinScope
      regex := c.regex
      ignore := c.ignore }

/-- Where the blocks of this shape go. -/
def placement (s : Shape) : Placement := if s.before then .before else .after

/-- A token as a pattern: as it stands, or quoted. -/
def token (t : Text) (regex : Bool) : Text := if regex then t else Pattern.quote t

/-- The written pattern of a signature, from indicator to end token. -/
def signature (s : Shape) : Text :=
  let indicator := "(?P<indicator>" ++ token s.indicator s.regex ++ ")\\s+"
  let ending := "(?P<end>" ++ token s.ending s.regex ++ ")"
  match s.arguments with
  | some a =>
    indicator ++ "(?P<name>.*?)\\s*" ++ token a.opening a.regex ++ "(?P<args>.*?)" ++
      token a.closing a.regex ++ "\\s*" ++ ending
  | none =>
    let ancestry : Text := match s.ancestry with
      | some t => "(?P<end_name>" ++ token t s.regex ++ ".*?)?"
      | none => []
    indicator ++ "(?P<name>\\S+?)\\s*" ++ ancestry ++ ending

/-- The written pattern of the constructs of this shape, with the delimiter
that documents them where there is one. -/
def source (s : Shape) : Text :=
  match s.kind with
  | .header => "(?s)\\A\\s*(?P<doc>" ++ s.openPattern ++ ")?"
  | _ =>
    if s.before then "(?s)(?P<close>" ++ s.closePattern ++ ")?\\s*" ++ s.signature
    else "(?s)" ++ s.signature ++ "\\s*(?P<open>" ++ s.openPattern ++ ")?"

end Shape
end DocScribe
