/-
Documenting files.

A file is read once. Each kind of construct is looked for in the text that
the kinds before it left, the user is asked about every construct found, and
the file is written once for each kind that received a block. The lines of a
change are those of the file as it was read.
-/
import DocScribe.Block.Render
import DocScribe.Block.Review
import DocScribe.Catalog
import DocScribe.Document.Report
import DocScribe.Document.Work

namespace DocScribe

/-- A file in progress: its text so far, the blocks it has received, and what
there is to report. -/
structure Draft where
  content : Text
  history : LineHistory := {}
  kinds : List KindReport := []

/-- A draft with the blocks of the candidates of a kind put in. -/
def Draft.withBlocks? (d : Draft) (kind : Kind) (candidates : List Candidate) : Option Draft :=
  let blocks := candidates.filterMap (·.block)
  let names := (candidates.filter (·.block.isSome)).map (·.name)
  (d.history.record? d.content blocks).bind fun history =>
    (applyBlocks? d.content blocks).map fun content =>
      { content, history, kinds := d.kinds ++ [⟨kind, names⟩] }

/-- Who documents: the formats it knows, whom it asks, and how it goes about
it. -/
structure Documenter (σ : Type) where
  catalog : Catalog
  prompter : Prompter σ
  /-- Every block is handed to the user before it is taken. -/
  review : Bool := false
  /-- Nothing is written. -/
  dryRun : Bool := false

namespace Documenter

variable {σ : Type}

/-- Asks about the arguments of a method. -/
def describeArguments (d : Documenter σ) (c : Candidate) (addType : Bool) :
    List Text → Work σ (List ArgumentText)
  | [] => pure []
  | name :: names => do
    let type ← if addType then some <$> Work.ask d.prompter (.argumentType c name) else pure none
    let doc ← Work.ask d.prompter (.argumentDoc c name)
    let others ← d.describeArguments c addType names
    pure (⟨name, type, doc⟩ :: others)

/-- Asks about a construct. -/
def describe (d : Documenter σ) (c : Candidate) (addType : Bool) : Work σ DocText := do
  let docstring ← Work.ask d.prompter (.docstring c)
  let arguments ← d.describeArguments c addType c.arguments
  pure ⟨docstring, arguments⟩

/-- The block that is left of one after the review; none when nothing is. -/
def reviewed? (d : Documenter σ) (c : Candidate) (b : Block) : Work σ (Option Block) := do
  if d.review then
    let answer ← Work.ask d.prompter (.review c (Review.wrap b.text))
    let text := Review.unwrap answer
    if text.isEmpty then
      Work.note [.emptyReview c.name]
      pure none
    else pure (some { b with text })
  else pure (some b)

/-- The block of a construct; none when the review left nothing of it. -/
def blockFor (d : Documenter σ) (style : Style) (c : Candidate) : Work σ (Option Block) := do
  let text ← d.describe c style.arguments.addType
  match style.render c text with
  | .ok b => d.reviewed? c b
  | .error e => throw e

/-- Gives each candidate its block. -/
def writeBlocks (d : Documenter σ) (style : Style) : List Candidate → Work σ (List Candidate)
  | [] => pure []
  | c :: cs => do
    let block ← d.blockFor style c
    let others ← d.writeBlocks style cs
    pure ({ c with block } :: others)

/-- Whether work on a file may go on: the first time it comes up, the user is
asked. -/
def admits (d : Documenter σ) (file : Path) : Work σ Bool := do
  if ← Work.announce d.prompter file then
    let wanted ← Work.ask d.prompter (.confirm file)
    unless wanted do Work.note [.declined file]
    pure wanted
  else pure true

/-- Documents the candidates of one kind. -/
def fillKind (d : Documenter σ) (file : Path) (k : KindPlan) (candidates : List Candidate) (draft : Draft) :
    Work σ Draft := do
  let candidates ← d.writeBlocks k.style candidates
  if (candidates.filterMap (·.block)).isEmpty then pure draft
  else
    match draft.withBlocks? k.grammar.shape.kind candidates with
    | none => throw .offset
    | some draft =>
      unless d.dryRun do Work.write file draft.content
      pure draft

/-- Documents one kind of construct; none when the user does not want the
file. -/
def documentKind (d : Documenter σ) (file : Path) (change : Option FileChange) (k : KindPlan)
    (draft : Draft) : Work σ (Option Draft) := do
  let (session, events) := scanWith k.grammar file draft.content change draft.history
  Work.note events
  if session.isEmpty then pure (some draft)
  else if ← d.admits file then some <$> d.fillKind file k session.candidates draft
  else pure none

/-- Documents kind after kind. -/
def documentKinds (d : Documenter σ) (file : Path) (change : Option FileChange) :
    List KindPlan → Draft → Work σ (Option Draft)
  | [], draft => pure (some draft)
  | k :: ks, draft => do
    match ← d.documentKind file change k draft with
    | some draft => d.documentKinds file change ks draft
    | none => pure none

/-- Documents a file; none when the user does not want it. -/
def documentFile (d : Documenter σ) (file : Path) (change : Option FileChange) :
    Work σ (Option FileReport) := do
  match d.catalog.planFor file with
  | .error e => throw e
  | .ok plan =>
    let before ← Work.read file
    let draft ← d.documentKinds file change plan.kinds { content := before }
    pure (draft.map fun draft => ⟨file, before, draft.content, draft.kinds⟩)

/-- What a change set says about a file; it is noted down when it says
nothing. -/
def changeFor (file : Path) : Option ChangeSet → Work σ (Option FileChange)
  | none => pure none
  | some set => do
    if (set.find? file).isNone then Work.note [.noPatch file]
    pure (set.find? file)

/-- Documents a file of a run. A failure ends the work on the file, a
cancellation the run. -/
def outcomeOf (d : Documenter σ) (changes : Option ChangeSet) (file : Path) : Work σ Outcome := do
  let change ← changeFor file changes
  let ended : Except Failure (Option FileReport) ← (d.documentFile file change).run
  match ended with
  | .ok (some report) => pure (.reported report)
  | .ok none => pure .declined
  | .error .cancelled => throw .cancelled
  | .error e => do
    Work.note [.fileFailed file]
    pure (.failed e)

/-- How the work on some files ends, one after the other. -/
def outcomes (d : Documenter σ) (changes : Option ChangeSet) : List Path → Work σ (List (Path × Outcome))
  | [] => pure []
  | file :: files => do
    let outcome ← d.outcomeOf changes file
    let others ← d.outcomes changes files
    pure ((file, outcome) :: others)

/-- Documents some files, in their order. -/
def documentFiles (d : Documenter σ) (files : List Path) (changes : Option ChangeSet) : Work σ RunReport := do
  pure ⟨← d.outcomes changes files⟩

end Documenter
end DocScribe
