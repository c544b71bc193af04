/-
Scanning: the constructs of a text that have no documentation.

Each match of a grammar comes to a finding. The findings that are candidates
make the session of the scan, and every finding says what is noted down.

The text of a signature is cut out of the text between two offsets, where the
indicator starts and where the end token ends. Tokens that are patterns may
turn these round, with a parenthesis that closes the group around them. A tool
that slices the text at the offsets stops there with an error of its own. A
scan has no such stop: `Cursor.textTo` gives the empty text, and `judge` goes on
with it. The two agree wherever `Grammar.OrderedIn` holds, as it does for
tokens that are read alone.
-/
import DocScribe.Change.Basic
import DocScribe.Event
import DocScribe.Scan.Arguments
import DocScribe.Scan.Grammar
import DocScribe.Scan.Session
import DocScribe.Splice.LineHistory

namespace DocScribe

/-- What a match comes to. -/
inductive Finding where
  /-- A delimiter stands next to the construct. -/
  | documented
  /-- Another construct has the line where the block would go. -/
  | crowded (line : Nat)
  | ignored (name : Text)
  /-- The construct is no part of the change. -/
  | untouched
  | candidate (c : Candidate) (unnamed : List Event)

namespace Grammar

/-- The signature in a match, from the indicator to the end token. That of a
file header is empty and stands at the start. -/
def signature? (g : Grammar) (t : Text) (m : Match) : Option Span :=
  match g.shape.kind with
  | .header => some ⟨.start t, .start t⟩
  | _ =>
    (m.group? "indicator").bind fun indicator =>
      (m.group? "end").map fun ending => ⟨indicator.first, ending.last⟩

/-- The signatures in a text. -/
def signatures (g : Grammar) (t : Text) : List Span :=
  (g.pattern.allMatches t).filterMap (g.signature? t)

/-- The line that a construct's block goes next to. -/
def anchorLine (g : Grammar) (table : LineTable) (s : Span) : Nat :=
  table.lineOf (if g.shape.before then s.start else s.stop)

/-- The signatures of a text as the lines their blocks go next to and the
offsets they start at. -/
def anchored (g : Grammar) (table : LineTable) (signatures : List Span) : List (Nat × Nat) :=
  signatures.map fun s => (g.anchorLine table s, s.start)

/-- Where the one construct starts that may be documented next to a line: the
first of the line when blocks go above, the last when they go below. -/
def owner? (g : Grammar) (anchored : List (Nat × Nat)) (line : Nat) : Option Nat :=
  let rivals := anchored.filter fun a => a.1 == line
  (if g.shape.before then rivals.head? else rivals.getLast?).map (·.2)

/-- The group whose presence tells that a construct is documented. -/
def documentedGroup (g : Grammar) : Text :=
  match g.shape.kind with
  | .header => "doc"
  | _ => if g.shape.before then "close" else "open"

/-- The name of a construct; a file header is named after its file. -/
def nameOf (g : Grammar) (file : Path) (m : Match) : Text :=
  match g.shape.kind with
  | .header => file.text
  | _ => Text.trim (((m.group? "name").map Span.text).getD [])

/-- The pieces of the argument list of a match; only methods have one. -/
def argumentPieces (g : Grammar) (m : Match) : List Text :=
  match g.shape.kind, m.group? "args" with
  | .method, some list => g.splitArguments list.text
  | _, _ => []

/-- The arguments that are never documented. -/
def ignoredArguments (g : Grammar) : List Text := (g.shape.arguments.map (·.ignore)).getD []

/-- The indentation of the block of a construct. -/
def indentationOf (g : Grammar) (t : Text) (s : Span) : Text :=
  if g.shape.withinScope then bodyMargin s.last.rest else lineMargin ((Cursor.start t).textTo s.first)

/-- The candidate of a signature on a line. -/
def candidateOf (g : Grammar) (file : Path) (t : Text) (line : Nat) (m : Match) (s : Span) : Candidate :=
  { kind := g.shape.kind
    name := g.nameOf file m
    text := s.text
    start := s.start
    stop := s.stop
    line
    indentation := g.indentationOf t s
    arguments := argumentNames g.ignoredArguments (g.argumentPieces m)
    placement := g.shape.placement
    withinScope := g.shape.withinScope
    file
    block := none }

/-- What a signature comes to, given the lines of the text, where the owner of
a line starts and which texts at which lines are part of the change. A
signature whose ends are the wrong way round is judged by the empty text. -/
def judge (g : Grammar) (file : Path) (t : Text) (table : LineTable) (owner : Nat → Option Nat)
    (touched : Nat → Text → Bool) (m : Match) (s : Span) : Finding :=
  let line := table.lineOf s.start
  if (m.group? g.documentedGroup).isSome then .documented
  else if owner (g.anchorLine table s) ≠ some s.start then .crowded line
  else if g.shape.ignore.contains (g.nameOf file m) then .ignored (g.nameOf file m)
  else if !touched line s.text then .untouched
  else .candidate (g.candidateOf file t line m s) (unnamedArguments g.ignoredArguments (g.argumentPieces m))

/-- What the matches in a text come to. With a change, only what it touches
counts; its lines are those from before the insertions of `history`. -/
def findings (g : Grammar) (file : Path) (t : Text) (change : Option FileChange)
    (history : LineHistory) : List Finding :=
  let ms := g.pattern.allMatches t
  let table := LineTable.ofText t
  let owner := g.owner? (g.anchored table (ms.filterMap (g.signature? t)))
  let touched line text :=
    match change with
    | some c => c.touches (history.initialLine line) text
    | none => true
  ms.filterMap fun m => (g.signature? t m).map (g.judge file t table owner touched m)

end Grammar

/-- The candidate of a finding. -/
def Finding.candidate? : Finding → Option Candidate
  | .candidate c _ => some c
  | _ => none

/-- What is noted down about a finding. -/
def Finding.events (kind : Kind) (file : Path) : Finding → List Event
  | .documented | .untouched => []
  | .crowded line => [.crowdedLine kind file line]
  | .ignored name => [.ignoredName kind file name]
  | .candidate c unnamed => unnamed ++ [.undocumented kind file c.name c.line]

/-- The undocumented constructs of a text that already received the blocks of
`history`, and what is noted down. -/
def scanWith (g : Grammar) (file : Path) (t : Text) (change : Option FileChange)
    (history : LineHistory) : Session × List Event :=
  let found := g.findings file t change history
  ((found.filterMap Finding.candidate?).foldl Session.insert (Session.empty file g.shape.kind),
    found.flatMap (Finding.events g.shape.kind file))

/-- The undocumented constructs of a text. -/
def scan (g : Grammar) (file : Path) (t : Text) (change : Option FileChange) : Session × List Event :=
  scanWith g file t change {}

end DocScribe
