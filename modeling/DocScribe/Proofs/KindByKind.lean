/-
A file is written kind by kind.

`KindRound` records a kind of construct that was worked on to the end: the
draft it found, what its candidates got, and the draft it left. Whatever the
user does, the work on a file is some rounds, one for each of the first kinds
of its format, and then either the end of the file, a refusal, or a failure
(`Documenter.documentKinds_run`). The texts that were written are those that
the rounds with at least one block left (`Documenter.documentFile_account`).
-/
import DocScribe.Prompt.Scripted
import DocScribe.Proofs.CatalogFacts
import DocScribe.Proofs.Deeds
import DocScribe.Proofs.PythonGrammar

namespace DocScribe

/-! ## Rounds -/

/-- One kind of construct that was worked on to the end: the draft it found,
its candidates with the blocks they got, and the draft it left. -/
structure KindRound where
  plan : KindPlan
  before : Draft
  got : List Candidate
  after : Draft

namespace KindRound

def kind (r : KindRound) : Kind := r.plan.grammar.shape.kind

/-- The blocks that the candidates got. -/
def blocks (r : KindRound) : List Block := r.got.filterMap (·.block)

/-- Whether a candidate got a block. -/
def fruitful (r : KindRound) : Bool := !r.blocks.isEmpty

/-- The names of the candidates that got a block. -/
def report (r : KindRound) : KindReport := ⟨r.kind, (r.got.filter (·.block.isSome)).map (·.name)⟩

/-- What the candidates of a round got in the course of some deeds: they are
those that the kind has in the draft, and each was asked about. -/
def Obtained {σ : Type} (d : Documenter σ) (file : Path) (change : Option FileChange) (deeds : List Deed)
    (r : KindRound) : Prop :=
  ∃ w₁ w₂, Work.runIn w₁ (d.writeBlocks r.plan.style (Documenter.found r.plan file change r.before)) =
    (.ok r.got, w₂) ∧ w₂.deeds <+: deeds

theorem Obtained.mono {σ : Type} {d : Documenter σ} {file : Path} {change : Option FileChange}
    {deeds deeds' : List Deed} {r : KindRound} (h : r.Obtained d file change deeds) (hle : deeds <+: deeds') :
    r.Obtained d file change deeds' := by
  obtain ⟨w₁, w₂, hgot, hdeeds⟩ := h
  exact ⟨w₁, w₂, hgot, hdeeds.trans hle⟩

end KindRound

/-- Rounds that lead from one draft to another, each with what its candidates
got. -/
inductive Linked : Draft → List KindRound → Draft → Prop
  | nil (draft : Draft) : Linked draft [] draft
  | cons (r : KindRound) {rounds : List KindRound} {draft : Draft}
      (hfilled : r.before.filled? r.kind r.got = some r.after) (hrest : Linked r.after rounds draft) :
      Linked r.before (r :: rounds) draft

/-- The texts that come of putting in one list of blocks after the other. -/
def splices? : Text → List (List Block) → Option (List Text)
  | _, [] => some []
  | t, blocks :: later => (applyBlocks? t blocks).bind fun t' => (splices? t' later).map (t' :: ·)

/-- What a round does to a draft: nothing without a block, else its blocks are
put in and it is reported. -/
theorem KindRound.filled_cases {r : KindRound} (h : r.before.filled? r.kind r.got = some r.after) :
    r.fruitful = false ∧ r.after = r.before ∨
      r.fruitful = true ∧ applyBlocks? r.before.content r.blocks = some r.after.content ∧
        r.after.kinds = r.before.kinds ++ [r.report] := by
  rcases Draft.filled?_cases h with ⟨hnone, hsame⟩ | ⟨hsome, happly, hkinds⟩
  · exact .inl ⟨by rw [fruitful, blocks, hnone]; rfl, hsame⟩
  · exact .inr ⟨by simpa [fruitful, blocks] using hsome, happly, hkinds⟩

namespace Linked

variable {draft draft' : Draft} {rounds : List KindRound}

/-- The rounds with a block lead from text to text. -/
theorem splices?_eq (h : Linked draft rounds draft') :
    splices? draft.content ((rounds.filter KindRound.fruitful).map KindRound.blocks) =
      some ((rounds.filter KindRound.fruitful).map (·.after.content)) := by
  induction h with
  | nil draft => rfl
  | cons r hfilled hrest ih =>
    rcases KindRound.filled_cases hfilled with ⟨hnone, hsame⟩ | ⟨hsome, happly, -⟩
    · rw [List.filter_cons_of_neg (by simp [hnone]), ← hsame]
      exact ih
    · rw [List.filter_cons_of_pos hsome, List.map_cons, splices?, happly, Option.bind_some, ih]
      rfl

/-- The last of these texts is that of the draft. -/
theorem content_eq (h : Linked draft rounds draft') :
    draft'.content = ((rounds.filter KindRound.fruitful).map (·.after.content)).getLast?.getD draft.content := by
  induction h with
  | nil draft => rfl
  | cons r hfilled hrest ih =>
    rcases KindRound.filled_cases hfilled with ⟨hnone, hsame⟩ | ⟨hsome, -, -⟩
    · rw [List.filter_cons_of_neg (by simp [hnone]), ← hsame]
      exact ih
    · rw [List.filter_cons_of_pos hsome, List.map_cons, List.getLast?_cons, Option.getD_some]
      exact ih

theorem kinds_eq (h : Linked draft rounds draft') :
    draft'.kinds = draft.kinds ++ (rounds.filter KindRound.fruitful).map KindRound.report := by
  induction h with
  | nil draft => simp
  | cons r hfilled hrest ih =>
    rcases KindRound.filled_cases hfilled with ⟨hnone, hsame⟩ | ⟨hsome, -, hkinds⟩
    · rw [List.filter_cons_of_neg (by simp [hnone]), ← hsame]
      exact ih
    · rw [List.filter_cons_of_pos hsome, List.map_cons, ih, hkinds, List.append_assoc]
      rfl

end Linked

/-! ## The work on a file -/

namespace Documenter

variable {σ : Type} {d : Documenter σ} {w : World σ} {file : Path} {change : Option FileChange}

/-- The texts that are written for some rounds. -/
def roundContents (d : Documenter σ) (rounds : List KindRound) : List Text :=
  rounds.flatMap fun r => d.contents r.got r.after.content

theorem roundContents_eq (hd : d.dryRun = false) (rounds : List KindRound) :
    d.roundContents rounds = (rounds.filter KindRound.fruitful).map (·.after.content) := by
  induction rounds with
  | nil => rfl
  | cons r rounds ih =>
    rw [roundContents, List.flatMap_cons, ← roundContents, ih, contents, hd, Bool.false_or]
    by_cases hnone : (r.got.filterMap (·.block)).isEmpty
    · rw [if_pos hnone, List.filter_cons_of_neg (by simp [KindRound.fruitful, KindRound.blocks, hnone])]
      rfl
    · rw [if_neg hnone, List.filter_cons_of_pos (by simp [KindRound.fruitful, KindRound.blocks, hnone])]
      rfl

/-- What the rounds on the way to an end have to do with it: all kinds were
worked on, or the user refused before anything was found, or work failed. -/
def EndsWith (file : Path) (w : World σ) (kinds : List KindPlan) (rounds : List KindRound) (draft' : Draft) :
    Except Failure (Option Draft) → Prop
  | .ok (some result) => rounds.map (·.plan) = kinds ∧ result = draft'
  | .ok none => ¬w.Knows file ∧ ∀ r ∈ rounds, r.got = []
  | .error _ => rounds.length < kinds.length

/-- The work on some kinds of construct, as rounds: their plans are the first of
those kinds, they lead from draft to draft, and what they left was written. -/
structure Rounds (d : Documenter σ) (file : Path) (change : Option FileChange) (kinds : List KindPlan)
    (draft : Draft) (w : World σ) (out : Except Failure (Option Draft) × World σ) (rounds : List KindRound) :
    Prop where
  plans : rounds.map (·.plan) <+: kinds
  obtained : ∀ r ∈ rounds, r.Obtained d file change out.2.deeds
  linked : ∃ draft', Linked draft rounds draft' ∧ EndsWith file w kinds rounds draft' out.1
  grows : ∃ new files, w.Grows file out.2 new files ∧ written new = (d.roundContents rounds).map (file, ·)

theorem Rounds.ended {kinds : List KindPlan} {draft : Draft} {out : Except Failure (Option Draft) × World σ}
    {new : List Deed} {files : List Path} (hend : EndsWith file w kinds [] draft out.1)
    (hgrows : w.Grows file out.2 new files) (hnone : written new = []) :
    d.Rounds file change kinds draft w out [] where
  plans := List.nil_prefix
  obtained := by simp
  linked := ⟨draft, .nil draft, hend⟩
  grows := ⟨new, files, hgrows, hnone⟩

/-- One more round in front. -/
theorem Rounds.cons {r : KindRound} {kinds : List KindPlan} {w' : World σ} {rounds : List KindRound}
    {out : Except Failure (Option Draft) × World σ} {new : List Deed} {files : List Path}
    (hfilled : r.before.filled? r.kind r.got = some r.after) (hobtained : r.Obtained d file change w'.deeds)
    (hgrows : w.Grows file w' new files)
    (hwritten : written new = (d.contents r.got r.after.content).map (file, ·))
    (hnone : ¬w'.Knows file → ¬w.Knows file ∧ r.got = [])
    (hrest : d.Rounds file change kinds r.after w' out rounds) :
    d.Rounds file change (r.plan :: kinds) r.before w out (r :: rounds) := by
  obtain ⟨draft', hlinked, hend⟩ := hrest.linked
  obtain ⟨new', files', hgrows', hwritten'⟩ := hrest.grows
  have hdeeds : w'.deeds <+: out.2.deeds := ⟨new', hgrows'.deeds_eq.symm⟩
  refine ⟨?_, ?_, ⟨draft', .cons r hfilled hlinked, ?_⟩, new ++ new', files' ++ files, hgrows.trans hgrows', ?_⟩
  · rw [List.map_cons]
    exact List.cons_prefix_cons.2 ⟨rfl, hrest.plans⟩
  · exact List.forall_mem_cons.2 ⟨KindRound.Obtained.mono hobtained hdeeds, hrest.obtained⟩
  · obtain ⟨result, w''⟩ := out
    match result, hend with
    | .ok (some result), ⟨hplans, hresult⟩ => exact ⟨by rw [List.map_cons, hplans], hresult⟩
    | .ok none, ⟨hnew, hgot⟩ =>
      obtain ⟨hnew', hgot'⟩ := hnone hnew
      exact ⟨hnew', List.forall_mem_cons.2 ⟨hgot', hgot⟩⟩
    | .error e, hshort => exact Nat.succ_lt_succ hshort
  · rw [written_append, hwritten, hwritten', ← List.map_append]
    rfl

/-- **The work on a file is some rounds and an end.** -/
theorem documentKinds_run (d : Documenter σ) (file : Path) (change : Option FileChange) (kinds : List KindPlan)
    (draft : Draft) (w : World σ) :
    ∃ rounds, d.Rounds file change kinds draft w (Work.runIn w (d.documentKinds file change kinds draft)) rounds := by
  induction kinds generalizing draft w with
  | nil => exact ⟨[], .ended ⟨rfl, rfl⟩ (.refl file w) rfl⟩
  | cons k kinds ih =>
    unfold documentKinds
    generalize hout : Work.runIn w (d.documentKind file change k draft) = out
    have hrun := documentKind_run d file change k draft w
    rw [hout] at hrun
    cases hrun with
    | @idle w' hnone hgrows =>
      rw [Work.runIn_bind_of_ok hout]
      obtain ⟨rounds, hrest⟩ := ih draft w'
      refine ⟨_, .cons (r := ⟨k, draft, [], draft⟩) rfl ⟨w', w', ?_, List.prefix_refl _⟩ hgrows ?_ ?_ hrest⟩
      · rw [hnone]
        rfl
      · simp [contents, written]
      · exact fun hnew => ⟨fun hknown => hnew (hgrows.knows hknown), rfl⟩
    | @refused answer w' hnew hanswer hgrows =>
      have hquiet : written [.announced file, .asked (.confirm file) answer] = [] := rfl
      cases answer with
      | ok b =>
        rw [Work.runIn_bind_of_ok hout]
        exact ⟨[], .ended ⟨hnew, by simp⟩ hgrows hquiet⟩
      | error e =>
        rw [Work.runIn_bind_of_error hout]
        exact ⟨[], .ended (Nat.succ_pos _) hgrows hquiet⟩
    | @worked w₁ w' ended hadmitted hfills =>
      obtain ⟨opening, files, hopening, hquiet⟩ : ∃ opening files, w.Grows file w₁ opening files ∧
          written opening = [] := by
        cases hadmitted with
        | before hknown hgrows => exact ⟨_, _, hgrows, rfl⟩
        | now hnew hgrows => exact ⟨_, _, hgrows, rfl⟩
      cases hfills with
      | failed hasked hgrows =>
        rw [Work.runIn_bind_of_error hout]
        refine ⟨[], .ended (Nat.succ_pos _) (hopening.trans hgrows) ?_⟩
        rw [written_append, hquiet, written_of_inquiries hasked]
        rfl
      | refused hasked hgrows _ hrefused =>
        rw [Work.runIn_bind_of_error hout]
        refine ⟨[], .ended (Nat.succ_pos _) ((hopening.trans hgrows).trans hrefused) ?_⟩
        rw [written_append, written_append, hquiet, written_of_inquiries hasked]
        rfl
      | @filled got asked next w₂ w' hasked hgot hgrows hdraft hwrites =>
        rw [Work.runIn_bind_of_ok hout]
        obtain ⟨rounds, hrest⟩ := ih next w'
        have hknows : w'.Knows file := hwrites.knows (hgrows.knows hadmitted.knows)
        refine ⟨_, .cons (r := ⟨k, draft, got, next⟩) hdraft ⟨w₁, w₂, hgot, _, hwrites.deeds_eq.symm⟩
          ((hopening.trans hgrows).trans hwrites) ?_ (fun hnew => absurd hknows hnew) hrest⟩
        rw [written_append, written_append, hquiet, written_of_inquiries hasked, written_map_wrote]
        rfl

end Documenter

/-! ## What was written -/

/-- The texts that rounds with at least one block left. -/
def KindRound.texts (rounds : List KindRound) : List Text :=
  (rounds.filter KindRound.fruitful).map (·.after.content)

namespace Documenter

variable {σ : Type} {d : Documenter σ} {w : World σ} {file : Path} {change : Option FileChange}

/-- The work on a file that held a text, by the rounds of the kinds that were
worked on to the end. -/
structure Account (d : Documenter σ) (file : Path) (change : Option FileChange) (kinds : List KindPlan) (t : Text)
    (w : World σ) (rounds : List KindRound) (out : Except Failure (Option FileReport) × World σ) : Prop where
  /-- The rounds are those of the first kinds, in the order of work. -/
  plans : rounds.map (·.plan) <+: kinds
  order : ((rounds.filter KindRound.fruitful).map KindRound.kind).Sublist Kind.all
  /-- Each round looked at what the one before it had left. -/
  linked : ∃ draft, Linked { content := t } rounds draft
  obtained : ∀ r ∈ rounds, r.Obtained d file change out.2.deeds
  /-- From text to text, the blocks of a round were put in. -/
  spliced : splices? t ((rounds.filter KindRound.fruitful).map KindRound.blocks) = some (KindRound.texts rounds)
  /-- These texts were written, one for each round with a block, and nothing
  else was. -/
  written : ∃ new, out.2.deeds = w.deeds ++ new ∧ written new = (KindRound.texts rounds).map (file, ·)
  /-- The file holds the last of them, and all else is as it was. -/
  disk : ∃ place, w.tree.resolve file = .file place (.text t) ∧
    out.2.tree.read file = .ok ((KindRound.texts rounds).getLast?.getD t) ∧
    ∀ q, out.2.tree.resolve q =
      (w.tree.resolve q).rewritten place (.text ((KindRound.texts rounds).getLast?.getD t))
  /-- What is reported. -/
  result :
    match out.1 with
    | .ok (some r) =>
      rounds.map (·.plan) = kinds ∧ r.path = file ∧ r.before = t ∧
        r.updated = (KindRound.texts rounds).getLast?.getD t ∧
        r.kinds = (rounds.filter KindRound.fruitful).map KindRound.report
    | .ok none => KindRound.texts rounds = []
    | .error _ => rounds.length < kinds.length

/-- **A file is written kind by kind.** Whatever the user answers, a kind of
construct with at least one block is written once, when all its candidates have
been asked about; a kind that fails leaves the file as the kinds before it
left it. -/
theorem documentFile_account {formats : List Format} (hcatalog : d.catalog = .ofFormats formats)
    (hd : d.dryRun = false) {plan : FormatPlan} (hplan : d.catalog.planFor file = .ok plan) {t : Text}
    (hread : w.tree.read file = .ok t) (change : Option FileChange) :
    ∃ rounds, d.Account file change plan.kinds t w rounds (Work.runIn w (d.documentFile file change)) := by
  obtain ⟨rounds, hrounds⟩ := documentKinds_run d file change plan.kinds { content := t } w
  obtain ⟨draft, hlinked, hend⟩ := hrounds.linked
  obtain ⟨new, files, hgrows, hwritten⟩ := hrounds.grows
  rw [roundContents_eq hd] at hwritten
  have hrun : Work.runIn w (d.documentFile file change) =
      Work.runIn w (Option.map (fun draft => ⟨file, t, draft.content, draft.kinds⟩) <$>
        d.documentKinds file change plan.kinds { content := t }) := by
    unfold documentFile
    rw [hplan, map_eq_pure_bind]
    exact Work.runIn_bind_of_ok (Work.runIn_read hread)
  rw [hrun, Work.runIn_map]
  obtain ⟨place, hplace⟩ := FileTree.exists_place hread
  have hwrites := hgrows.writeAll
  rw [hwritten, List.map_map, Function.comp_def, List.map_id', ← KindRound.texts] at hwrites
  have hresolve := (FileTree.resolve_writeAll hplace hwrites).1
  refine ⟨rounds, hrounds.plans, ?_, ⟨draft, hlinked⟩, hrounds.obtained, hlinked.splices?_eq,
    ⟨new, hgrows.deeds_eq, hwritten⟩, ⟨place, hplace, ?_, hresolve⟩, ?_⟩
  · rw [hcatalog] at hplan
    have hkinds := (hrounds.plans.sublist.map (·.grammar.shape.kind)).trans (Catalog.planFor_kinds_sublist hplan)
    rw [List.map_map] at hkinds
    exact (List.filter_sublist.map _).trans hkinds
  · have hfile := hresolve file
    rw [hplace, Destination.rewritten, if_pos rfl] at hfile
    exact FileTree.read_of_resolve hfile
  · revert hend
    cases (Work.runIn w (d.documentKinds file change plan.kinds { content := t })).1 with
    | error e => exact id
    | ok ended =>
      cases ended with
      | none =>
        rintro ⟨-, hgot⟩
        have hnone : rounds.filter KindRound.fruitful = [] := by
          rw [List.filter_eq_nil_iff]
          intro r hr
          simp [KindRound.fruitful, KindRound.blocks, hgot r hr]
        show KindRound.texts rounds = []
        rw [KindRound.texts, hnone]
        rfl
      | some result =>
        rintro ⟨hplans, rfl⟩
        exact ⟨hplans, rfl, rfl, hlinked.content_eq, hlinked.kinds_eq⟩

end Documenter

/-! ## A cancelled file -/

namespace CancelledBelow

def file : Path := ⟨"a.py"⟩

def text : Text := "def f():\n    pass\n"

def documenter : Documenter Script := { catalog := .ofFormats [.python], prompter := .scripted }

/-- The file gets a header, and then the user gives up. -/
def world : World Script :=
  { tree := { nodes := [(["a.py"], .file (.text text))] }
    prompt := { docstrings := [.give "A module.".toList, .cancel] } }

def headed : Text := "\"\"\"\nA module.\n\"\"\"\ndef f():\n    pass\n"

def outcome : Except Failure (Option FileReport) × World Script :=
  Work.runIn world (documenter.documentFile file none)

set_option maxRecDepth 100000 in
theorem ended :
    (match outcome.1 with | .error e => some e | .ok _ => none) = some .cancelled ∧
      (written outcome.2.deeds).map (·.2) = [headed] := by decide +kernel

theorem cancelled : outcome.1 = .error .cancelled := by
  have hended := ended.1
  cases hout : outcome.1 with
  | error e =>
    rw [hout] at hended
    rw [Option.some.inj hended]
  | ok r => simp [hout] at hended

/-- The header stays, and nothing is left of the method. -/
theorem documentFile_account_cancelled :
    outcome.1 = .error .cancelled ∧
      ∃ rounds, documenter.Account file none Python.plan.kinds text world rounds outcome ∧
        KindRound.texts rounds = [headed] := by
  have hplan : documenter.catalog.planFor file = .ok Python.plan := Python.planFor_py (by decide)
  have hread : world.tree.read file = .ok text := rfl
  obtain ⟨rounds, h⟩ := Documenter.documentFile_account rfl rfl hplan hread none
  obtain ⟨new, hdeeds, hwritten⟩ := h.written
  refine ⟨cancelled, rounds, h, ?_⟩
  have hnew : (written new).map (·.2) = [headed] := by
    rw [← ended.2, outcome, hdeeds]
    rfl
  rwa [hwritten, List.map_map, Function.comp_def, List.map_id'] at hnew

/-- The same file where there is room for the header, and for nothing more. -/
def full : World Script :=
  { tree := { world.tree with refusal := fun _ c => if c = .text headed then none else some .noSpace }
    prompt := { docstrings := [.give "A module.".toList, .give "Does nothing.".toList] } }

set_option maxRecDepth 100000 in
/-- The header stays here as well. -/
example :
    (match (Work.runIn full (documenter.documentFile file none)).1 with | .error e => some e | .ok _ => none) =
        some (.fileAccess file.text .noSpace) ∧
      ((Work.runIn full (documenter.documentFile file none)).2.tree.read file).toOption = some headed := by decide +kernel

end CancelledBelow

end DocScribe
