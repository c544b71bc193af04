/-
Runs that the user cancels.

Documenting some files fails only when the user cancels a question, and then
the question was the last thing that was done (`Work.Yields`). What is left of
the file in progress is what the kinds of construct left that were worked on to
the end: the file is as it was exactly when none of them got a block, or nothing
is written at all (`Documenter.documentFiles_cancelled`). A header that was
written before its file is given up stays (`GivenUp.header_left`).
-/
import DocScribe.Proofs.Consent
import DocScribe.Proofs.FilesApart
import DocScribe.Proofs.KindByKind
import DocScribe.Proofs.Rounds

namespace DocScribe

/-! ## Blocks make a text longer -/

namespace Block

variable {b : Block} {t t' : Text}

theorem withEnding_ne_nil {newline : Text} (hnewline : newline ≠ []) (hend : b.Ended) :
    withEnding newline b.text ≠ [] := by
  obtain ⟨s, hs⟩ := hend
  unfold withEnding
  split
  · simp [hs]
  · simp [hs, hnewline]

theorem length_lt_of_splice? {newline : Text} (hnewline : newline ≠ []) (hend : b.Ended)
    (h : splice? newline t b = some t') : t.length < t'.length := by
  obtain ⟨p, hp, rfl⟩ := Option.map_eq_some_iff.1 h
  have hadded : 0 < (withEnding newline b.text).length := List.length_pos_iff.2 (withEnding_ne_nil hnewline hend)
  have hlength := congrArg List.length (point?_cases hp).1
  rw [List.length_append] at hlength
  simp only [insertion, List.length_append]
  omega

end Block

theorem length_lt_of_applyBlocks? {t t' : Text} {blocks : List Block} (hsome : blocks ≠ [])
    (hend : ∀ b ∈ blocks, b.Ended) (h : applyBlocks? t blocks = some t') : t.length < t'.length := by
  have hnewline : Text.lineEnding t ≠ [] := by
    rcases Text.lineEnding_cases t with h | h <;> simp [h]
  have hfold : ∀ (bs : List Block) (u : Text), (∀ b ∈ bs, b.Ended) →
      bs.foldlM (Block.splice? (Text.lineEnding t)) u = some t' → u.length + bs.length ≤ t'.length := by
    intro bs
    induction bs with
    | nil =>
      intro u _ hu
      cases hu
      exact Nat.le_refl _
    | cons b bs ih =>
      intro u hbs hu
      obtain ⟨hb, hbs⟩ := List.forall_mem_cons.1 hbs
      rw [List.foldlM_cons] at hu
      obtain ⟨u', hsplice, hu⟩ := Option.bind_eq_some_iff.1 hu
      have hlonger := Block.length_lt_of_splice? hnewline hb hsplice
      have hrest := ih u' hbs hu
      rw [List.length_cons]
      omega
  have hperm := sorted_perm Block.downward blocks
  have hlength := hfold _ t (fun b hb => hend b (hperm.mem_iff.1 hb)) h
  have hpos := List.length_pos_iff.2 hsome
  rw [hperm.length_eq] at hlength
  omega

/-- A block that a candidate got ends with a line feed. -/
theorem KindRound.Obtained.ended {σ : Type} {d : Documenter σ} {file : Path} {change : Option FileChange}
    {deeds : List Deed} {r : KindRound} (h : r.Obtained d file change deeds) : ∀ b ∈ r.blocks, b.Ended := by
  obtain ⟨w₁, w₂, hgot, -⟩ := h
  obtain ⟨picked, -, hgot, hfits⟩ := Documenter.writeBlocks_picked hgot
  intro b hb
  rw [KindRound.blocks, hgot, List.filterMap_map] at hb
  obtain ⟨p, hp, hpb⟩ := List.mem_filterMap.1 hb
  exact (hfits p hp b hpb).2

/-- Rounds leave a text as it was exactly when none of them has a block. -/
theorem Linked.content_eq_iff {draft draft' : Draft} {rounds : List KindRound} (h : Linked draft rounds draft')
    (hend : ∀ r ∈ rounds, ∀ b ∈ r.blocks, b.Ended) :
    draft'.content = draft.content ↔ ∀ r ∈ rounds, r.blocks = [] := by
  have hlonger : (∀ r ∈ rounds, r.blocks = []) ∧ draft'.content = draft.content ∨
      (∃ r ∈ rounds, r.blocks ≠ []) ∧ draft.content.length < draft'.content.length := by
    induction h with
    | nil draft => exact .inl ⟨by simp, rfl⟩
    | cons r hfilled hrest ih =>
      obtain ⟨hr, hend⟩ := List.forall_mem_cons.1 hend
      rcases KindRound.filled_cases hfilled with ⟨hnone, hsame⟩ | ⟨hsome, happly, -⟩
      · have hnone : r.blocks = [] := by simpa [KindRound.fruitful] using hnone
        rw [← hsame]
        rcases ih hend with ⟨hall, hcontent⟩ | ⟨⟨x, hx, hblocks⟩, hlength⟩
        · exact .inl ⟨List.forall_mem_cons.2 ⟨hnone, hall⟩, hcontent⟩
        · exact .inr ⟨⟨x, List.mem_cons_of_mem r hx, hblocks⟩, hlength⟩
      · have hsome : r.blocks ≠ [] := by simpa [KindRound.fruitful] using hsome
        have hlength := length_lt_of_applyBlocks? hsome hr happly
        refine .inr ⟨⟨r, List.mem_cons_self, hsome⟩, ?_⟩
        rcases ih hend with ⟨-, hcontent⟩ | ⟨-, hlength'⟩
        · rwa [hcontent]
        · exact Nat.lt_trans hlength hlength'
  rcases hlonger with ⟨hall, hcontent⟩ | ⟨⟨r, hr, hblocks⟩, hlength⟩
  · exact ⟨fun _ => hall, fun _ => hcontent⟩
  · refine ⟨fun hcontent => ?_, fun hall => absurd (hall r hr) hblocks⟩
    rw [hcontent] at hlength
    exact absurd hlength (Nat.lt_irrefl _)

/-! ## Cancelled by the user -/

namespace Work

variable {σ α β : Type} {p : Prompter σ} {file : Path}

/-- Work on a file that is cancelled by the user only: by the answer to a
question about the file, after which nothing more is done. -/
def Yields (p : Prompter σ) (file : Path) (x : Work σ α) : Prop :=
  ∀ w w', runIn w x = (.error .cancelled, w') → ∃ q s before, q.file = file ∧
    (p.answer q s).1 = .error .cancelled ∧ w'.deeds = before ++ [.asked q (.error .cancelled)]

namespace Yields

/-- Work that ends in another way. -/
theorem of_ne {x : Work σ α} (h : ∀ w, (runIn w x).1 ≠ .error .cancelled) : Yields p file x :=
  fun w _ hx => absurd (congrArg Prod.fst hx) (h w)

theorem pure (a : α) : Yields p file (Pure.pure a) := .of_ne fun _ h => by cases h

theorem throw {e : Failure} (he : e ≠ .cancelled) : Yields p file (MonadExcept.throw e : Work σ α) :=
  .of_ne fun _ h => he (Except.error.inj h)

theorem note (events : List Event) : Yields p file (Work.note events) := .of_ne fun _ h => by cases h

theorem ask {q : Question} (hq : q.file = file) : Yields p file (Work.ask p q) := by
  intro w w' h
  obtain ⟨hanswer, rfl⟩ := Prod.mk.inj h
  refine ⟨q, w.prompt, w.deeds, hq, hanswer, ?_⟩
  show w.deeds ++ [.asked q (p.answer q w.prompt).1] = _
  rw [hanswer]

theorem bind_of_ok {x : Work σ α} {f : α → Work σ β} (hx : Yields p file x)
    (hf : ∀ w a w', runIn w x = (.ok a, w') → Yields p file (f a)) : Yields p file (x >>= f) := by
  intro w w' h
  rcases hfirst : runIn w x with ⟨e | a, w₁⟩
  · rw [runIn_bind_of_error hfirst] at h
    cases h
    exact hx w _ hfirst
  · rw [runIn_bind_of_ok hfirst] at h
    exact hf w a w₁ hfirst w₁ w' h

theorem announce (f : Path) : Yields p file (Work.announce p f) := by
  refine .of_ne fun w h => ?_
  by_cases hknown : w.Knows f
  · have hrun : runIn w (Work.announce p f) = (.ok false, w) := if_pos hknown
    simp [hrun] at h
  · have hrun : runIn w (Work.announce p f) = (.ok true, _) := if_neg hknown
    simp [hrun] at h

theorem read : Yields p file (Work.read file) := by
  refine .of_ne fun w h => ?_
  cases hread : w.tree.read file with
  | ok t => simp [runIn_read hread] at h
  | error fault => simp [runIn_read_error hread] at h

theorem write (t : Text) : Yields p file (Work.write file t) := by
  refine .of_ne fun w h => ?_
  cases hwrite : w.tree.write file t with
  | ok tree => simp [runIn_write hwrite] at h
  | error fault => simp [runIn_write_error hwrite] at h

end Yields
end Work

theorem Style.render_ne_cancelled (style : Style) (c : Candidate) (text : DocText) :
    style.render c text ≠ .error .cancelled := by
  unfold Style.render Style.layout
  split
  · split <;> simp [Except.map]
  · simp [Except.map]

theorem Catalog.planFor_error {catalog : Catalog} {file : Path} {e : Failure} (h : catalog.planFor file = .error e) :
    e = .unknownFormat file.text := by
  unfold planFor at h
  split at h
  · cases h
  · cases h
    rfl

namespace Documenter

variable {σ : Type} {d : Documenter σ} {w w' : World σ} {file : Path} {change : Option FileChange}

theorem stepwise_yields (p : Prompter σ) (file : Path) : Work.Stepwise fun _ (x _ : Work σ _) => x.Yields p file :=
  ⟨.pure, .note, .bind_of_ok⟩

theorem inStep_yields (d : Documenter σ) (file : Path) (style : Style) :
    InStep (fun _ x _ => x.Yields d.prompter file) file style d d where
  steps := stepwise_yields d.prompter file
  review := rfl
  ask hq hc := .ask ((Question.file_eq hq).trans hc)
  unrendered {c text _} hrender := .throw fun he => style.render_ne_cancelled c text (he ▸ hrender)

theorem yields_save (d : Documenter σ) (file : Path) (t : Text) : (d.save file t).Yields d.prompter file :=
  (stepwise_yields d.prompter file).save (e := d) rfl fun _ => .write t

theorem yields_documentKinds (d : Documenter σ) (file : Path) (change : Option FileChange) (kinds : List KindPlan)
    (draft : Draft) : (d.documentKinds file change kinds draft).Yields d.prompter file := by
  have hsteps := stepwise_yields d.prompter file
  refine hsteps.documentKinds (e := d) (hsteps.admits (e := d) (.announce file) (.ask rfl)) (fun k _ draft => ?_) draft
  exact (inStep_yields d file k.style).fillKind (fun c hc => file_of_mem_found hc)
    (fun _ _ _ _ _ => .throw (by simp)) (d.yields_save file)

theorem yields_documentFile (d : Documenter σ) (file : Path) (change : Option FileChange) :
    (d.documentFile file change).Yields d.prompter file := by
  refine (stepwise_yields d.prompter file).documentFile (e := d) rfl (fun failure hplan => .throw fun he => ?_) .read
    fun plan _ draft => d.yields_documentKinds file change plan.kinds draft
  rw [Catalog.planFor_error hplan] at he
  cases he

/-! ## What is left -/

/-- What the file holds after some rounds: what they left, unless nothing is
written. -/
theorem read_of_rounds {kinds : List KindPlan} {t : Text} {out : Except Failure (Option Draft) × World σ}
    {rounds : List KindRound} (hread : w.tree.read file = .ok t)
    (h : d.Rounds file change kinds { content := t } w out rounds) :
    (∃ news, w.tree.Edits file news out.2.tree ∧ (d.dryRun = true → news = [])) ∧
      (out.2.tree.read file = .ok t ↔ d.dryRun = true ∨ ∀ r ∈ rounds, r.blocks = []) := by
  obtain ⟨draft, hlinked, -⟩ := h.linked
  obtain ⟨new, files, hgrows, hwritten⟩ := h.grows
  have hwrites := hgrows.writeAll
  rw [hwritten, List.map_map, Function.comp_def, List.map_id'] at hwrites
  have hdrawn (hdry : d.dryRun = true) : d.roundContents rounds = [] := by simp [roundContents, contents, hdry]
  refine ⟨⟨_, ⟨hwrites, fun _ => ⟨t, hread⟩⟩, hdrawn⟩, ?_⟩
  obtain ⟨place, hplace⟩ := FileTree.exists_place hread
  have hfile := (FileTree.resolve_writeAll hplace hwrites).1 file
  rw [hplace, Destination.rewritten, if_pos rfl] at hfile
  rw [FileTree.read_of_resolve hfile, Except.ok.injEq]
  cases hdry : d.dryRun with
  | true =>
    simp [hdrawn hdry]
  | false =>
    rw [roundContents_eq hdry, ← hlinked.content_eq, hlinked.content_eq_iff fun r hr => (h.obtained r hr).ended]
    simp

/-- The work on a file writes to this file only, and a dry run writes nothing. -/
theorem documentFile_edits (d : Documenter σ) (file : Path) (change : Option FileChange) (w : World σ) :
    ∃ news, w.tree.Edits file news (Work.runIn w (d.documentFile file change)).2.tree ∧
      (d.dryRun = true → news = []) := by
  unfold documentFile
  cases d.catalog.planFor file with
  | error e => exact ⟨[], .refl w.tree file, fun _ => rfl⟩
  | ok plan =>
    dsimp only
    cases hread : w.tree.read file with
    | error fault =>
      rw [Work.runIn_bind_of_error (Work.runIn_read_error hread)]
      exact ⟨[], .refl w.tree file, fun _ => rfl⟩
    | ok t =>
      rw [Work.runIn_bind_of_ok (Work.runIn_read hread), ← map_eq_pure_bind, Work.runIn_map]
      obtain ⟨rounds, hrounds⟩ := documentKinds_run d file change plan.kinds { content := t } w
      exact (read_of_rounds hread hrounds).1

theorem outcomeOf_edits (d : Documenter σ) (changes : Option ChangeSet) (file : Path) (w : World σ) :
    ∃ news, w.tree.Edits file news (Work.runIn w (d.outcomeOf changes file)).2.tree ∧
      (d.dryRun = true → news = []) := by
  obtain ⟨began, hchange, hgrows⟩ := changeFor_run file changes w
  have htree : w.tree = began.tree := Except.ok.inj hgrows.writeAll
  have hedits := d.documentFile_edits file (changes.bind (·.find? file)) began
  unfold outcomeOf
  rw [Work.runIn_bind_of_ok hchange, Work.runIn_bind_of_ok (Work.runIn_run _), htree]
  generalize Work.runIn began (d.documentFile file (changes.bind (·.find? file))) = out at hedits ⊢
  obtain ⟨ended, w₂⟩ := out
  match ended with
  | .ok (some report) => exact hedits
  | .ok none => exact hedits
  | .error e => cases e <;> exact hedits

/-- A run goes on after a file that was worked on to the end. -/
theorem outcomes_of_ok {changes : Option ChangeSet} {files : List Path} {outcome : Outcome} {w₁ : World σ}
    (hfile : Work.runIn w (d.outcomeOf changes file) = (.ok outcome, w₁)) :
    Work.runIn w (d.outcomes changes (file :: files)) =
      ((Work.runIn w₁ (d.outcomes changes files)).1.map ((file, outcome) :: ·),
        (Work.runIn w₁ (d.outcomes changes files)).2) := by
  rw [outcomes, Work.runIn_bind_of_ok hfile, ← map_eq_pure_bind, Work.runIn_map]

/-- A run ends with a file that is broken off. -/
theorem outcomes_of_error {changes : Option ChangeSet} {files : List Path} {e : Failure} {w₁ : World σ}
    (hfile : Work.runIn w (d.outcomeOf changes file) = (.error e, w₁)) :
    Work.runIn w (d.outcomes changes (file :: files)) = (.error e, w₁) := by
  rw [outcomes, Work.runIn_bind_of_error hfile]

theorem documentFiles_cons (d : Documenter σ) (changes : Option ChangeSet) (file : Path) (files : List Path) :
    d.documentFiles (file :: files) changes = (do
      let outcome ← d.outcomeOf changes file
      let report ← d.documentFiles files changes
      pure ⟨(file, outcome) :: report.outcomes⟩) := by
  simp only [documentFiles, outcomes, bind_assoc, pure_bind]

/-- A run that was broken off at a file: `began` is the world in which the work
on the file began, `t` is what the file held then, and `rounds` are the kinds of
construct that were worked on to the end. -/
structure BrokenOff (d : Documenter σ) (changes : Option ChangeSet) (done : List Path) (file : Path)
    (w began w' : World σ) (t : Text) (rounds : List KindRound) : Prop where
  /-- The files before it were worked on to the end. -/
  before : ∃ report w₁, Work.runIn w (d.documentFiles done changes) = (.ok report, w₁) ∧
    Work.runIn w₁ (changeFor file changes) = (.ok (changes.bind (·.find? file)), began)
  cancelled : Work.runIn began (d.documentFile file (changes.bind (·.find? file))) = (.error .cancelled, w')
  /-- The user cancelled a question about the file. -/
  answer : ∃ q s deeds, q.file = file ∧ (d.prompter.answer q s).1 = .error .cancelled ∧
    w'.deeds = deeds ++ [.asked q (.error .cancelled)]
  read : began.tree.read file = .ok t
  worked : ∃ plan, d.catalog.planFor file = .ok plan ∧
    d.Rounds file (changes.bind (·.find? file)) plan.kinds { content := t } began
      (Work.runIn began (d.documentKinds file (changes.bind (·.find? file)) plan.kinds { content := t })) rounds
  /-- The file is as it was exactly when no block was put into it. -/
  kept : w'.tree.read file = .ok t ↔ d.dryRun = true ∨ ∀ r ∈ rounds, r.blocks = []
  /-- Every other file is as it was. -/
  elsewhere : ∀ q, began.tree.Apart file q → w'.tree.resolve q = began.tree.resolve q
  /-- Files that were not begun are as they were before the run. -/
  untouched : ∀ q, (∀ p ∈ done ++ [file], w.tree.Apart p q) → w'.tree.resolve q = w.tree.resolve q

/-- The work on a file that the user cancels. -/
theorem documentFile_cancelled (h : Work.runIn w (d.documentFile file change) = (.error .cancelled, w')) :
    ∃ t plan rounds, w.tree.read file = .ok t ∧ d.catalog.planFor file = .ok plan ∧
      d.Rounds file change plan.kinds { content := t } w
        (Work.runIn w (d.documentKinds file change plan.kinds { content := t })) rounds ∧
      (w'.tree.read file = .ok t ↔ d.dryRun = true ∨ ∀ r ∈ rounds, r.blocks = []) := by
  unfold documentFile at h
  cases hplan : d.catalog.planFor file with
  | error e =>
    rw [hplan, Catalog.planFor_error hplan] at h
    cases h
  | ok plan =>
    rw [hplan] at h
    dsimp only at h
    cases hread : w.tree.read file with
    | error fault =>
      rw [Work.runIn_bind_of_error (Work.runIn_read_error hread)] at h
      cases h
    | ok t =>
      rw [Work.runIn_bind_of_ok (Work.runIn_read hread), ← map_eq_pure_bind, Work.runIn_map] at h
      obtain ⟨-, rfl⟩ := Prod.mk.inj h
      obtain ⟨rounds, hrounds⟩ := documentKinds_run d file change plan.kinds { content := t } w
      exact ⟨t, plan, rounds, rfl, rfl, hrounds, (read_of_rounds hread hrounds).2⟩

/-- A file of a run ends the run only when the user cancels the work on it. -/
theorem outcomeOf_cancelled {changes : Option ChangeSet} {e : Failure}
    (h : Work.runIn w (d.outcomeOf changes file) = (.error e, w')) :
    e = .cancelled ∧ ∃ began, Work.runIn w (changeFor file changes) = (.ok (changes.bind (·.find? file)), began) ∧
      Work.runIn began (d.documentFile file (changes.bind (·.find? file))) = (.error .cancelled, w') := by
  obtain ⟨began, hchange, -⟩ := changeFor_run file changes w
  unfold outcomeOf at h
  rw [Work.runIn_bind_of_ok hchange, Work.runIn_bind_of_ok (Work.runIn_run _)] at h
  rcases hended : Work.runIn began (d.documentFile file (changes.bind (·.find? file))) with ⟨e' | report?, w₂⟩
  · rw [hended] at h
    cases e' with
    | cancelled =>
      cases h
      exact ⟨rfl, began, hchange, hended⟩
    | _ => cases h
  · rw [hended] at h
    cases report? with
    | none => cases h
    | some report => cases h

/-- A run ends with the file that the user cancels. -/
theorem documentFiles_of_cancelled (h : Work.runIn w (d.documentFile file none) = (.error .cancelled, w'))
    (files : List Path) : Work.runIn w (d.documentFiles (file :: files) none) = (.error .cancelled, w') := by
  have hchange : Work.runIn w (changeFor file none) = (.ok none, w) := rfl
  have houtcome : Work.runIn w (d.outcomeOf none file) = (.error .cancelled, w') := by
    unfold outcomeOf
    rw [Work.runIn_bind_of_ok hchange, Work.runIn_bind_of_ok (Work.runIn_run _), h]
    rfl
  rw [documentFiles_cons, Work.runIn_bind_of_error houtcome]

/-- A run that the user cancels at its first file. -/
theorem brokenOff_first {changes : Option ChangeSet} {e : Failure}
    (h : Work.runIn w (d.outcomeOf changes file) = (.error e, w')) :
    e = .cancelled ∧ ∃ began t rounds, d.BrokenOff changes [] file w began w' t rounds := by
  obtain ⟨rfl, began, hbegan, hcancelled⟩ := outcomeOf_cancelled h
  obtain ⟨t, plan, rounds, hread, hplan, hrounds, hkept⟩ := documentFile_cancelled hcancelled
  obtain ⟨news, hedits, -⟩ := d.documentFile_edits file (changes.bind (·.find? file)) began
  rw [hcancelled] at hedits
  obtain ⟨news', hedits', -⟩ := d.outcomeOf_edits changes file w
  rw [h] at hedits'
  exact ⟨rfl, began, t, rounds, ⟨⟨[]⟩, w, rfl, hbegan⟩, hcancelled, d.yields_documentFile file _ began w' hcancelled,
    hread, ⟨plan, hplan, hrounds⟩, hkept, fun q hq => hedits.elsewhere hq,
    fun q hq => hedits'.elsewhere (hq file List.mem_cons_self)⟩

/-- A file that was worked on to the end comes before. -/
theorem BrokenOff.cons {changes : Option ChangeSet} {first : Path} {done : List Path} {outcome : Outcome}
    {w₁ began : World σ} {t : Text} {rounds : List KindRound}
    (hfirst : Work.runIn w (d.outcomeOf changes first) = (.ok outcome, w₁))
    (h : d.BrokenOff changes done file w₁ began w' t rounds) :
    d.BrokenOff changes (first :: done) file w began w' t rounds := by
  refine { h with before := ?_, untouched := fun q hq => ?_ }
  · obtain ⟨report, w₂, hdone, hbegan⟩ := h.before
    refine ⟨⟨(first, outcome) :: report.outcomes⟩, w₂, ?_, hbegan⟩
    rw [documentFiles_cons]
    exact Work.runIn_bind_ok.2 ⟨outcome, w₁, hfirst, Work.runIn_bind_ok.2 ⟨report, w₂, hdone, rfl⟩⟩
  · obtain ⟨news, hedits, -⟩ := d.outcomeOf_edits changes first w
    rw [hfirst] at hedits
    obtain ⟨hfile, hq⟩ := List.forall_mem_cons.1 hq
    rw [h.untouched q fun p hp => hedits.apart_iff.2 (hq p hp), hedits.elsewhere hfile]

/-- **A run fails only when the user cancels it.** The file in progress is as it
was when the work on it began exactly when none of its kinds of construct that
were worked on to the end got a block, or nothing is written at all; every other
file is as it was then, and files that were not begun are as they were before. -/
theorem documentFiles_cancelled (files : List Path) (changes : Option ChangeSet) {e : Failure}
    (h : Work.runIn w (d.documentFiles files changes) = (.error e, w')) :
    e = .cancelled ∧ ∃ done file later began t rounds, files = done ++ file :: later ∧
      d.BrokenOff changes done file w began w' t rounds := by
  induction files generalizing w with
  | nil => cases h
  | cons file files ih =>
    rw [documentFiles_cons] at h
    rcases hfirst : Work.runIn w (d.outcomeOf changes file) with ⟨e' | outcome, w₁⟩
    · rw [Work.runIn_bind_of_error hfirst] at h
      cases h
      obtain ⟨rfl, began, t, rounds, hbroken⟩ := brokenOff_first hfirst
      exact ⟨rfl, [], file, files, began, t, rounds, rfl, hbroken⟩
    · rw [Work.runIn_bind_of_ok hfirst, ← map_eq_pure_bind, Work.runIn_map] at h
      rcases hrest : Work.runIn w₁ (d.documentFiles files changes) with ⟨e' | report, w₂⟩
      · rw [hrest] at h
        cases h
        obtain ⟨rfl, done, p, later, began, t, rounds, rfl, hbroken⟩ := ih hrest
        exact ⟨rfl, file :: done, p, later, began, t, rounds, rfl, hbroken.cons hfirst⟩
      · rw [hrest] at h
        cases h

end Documenter

/-! ## Two files, one given up -/

namespace GivenUp

def upper : Path := ⟨"a.py"⟩

def lower : Path := ⟨"b.py"⟩

def text : Text := "def f():\n    pass\n"

def headed : Text := "\"\"\"\nA module.\n\"\"\"\ndef f():\n    pass\n"

def documenter : Documenter Script := { catalog := .ofFormats [.python], prompter := .scripted }

/-- Two files that are the same, and the answers of the user to the questions
for docstrings. -/
def world (docstrings : List (Prepared Text)) : World Script :=
  { tree := { nodes := [(["a.py"], .file (.text text)), (["b.py"], .file (.text text))] }, prompt := { docstrings } }

def run (docstrings : List (Prepared Text)) : Except Failure RunReport × World Script :=
  Work.runIn (world docstrings) (documenter.documentFiles [upper, lower] none)

/-- The failure of some work, if it failed. -/
def failure? {α : Type} (out : Except Failure α × World Script) : Option Failure :=
  match out.1 with
  | .error e => some e
  | .ok _ => none

theorem eq_of_failure? {α : Type} {out : Except Failure α × World Script} {e : Failure} (h : failure? out = some e) :
    out = (.error e, out.2) := by
  obtain ⟨result, w'⟩ := out
  cases result with
  | error e' => rw [Option.some.inj h]
  | ok a => cases h

/-- The file that the last question was about. -/
def lastFile? (deeds : List Deed) : Option Path :=
  match deeds.getLast? with
  | some (.asked q _) => some q.file
  | _ => none

/-- The user gives up when the first file is done. -/
def later : List (Prepared Text) := [.give "A module.".toList, .give "Does nothing.".toList, .cancel]

set_option maxRecDepth 100000 in
theorem ended_later : failure? (run later) = some .cancelled ∧ lastFile? (run later).2.deeds = some lower ∧
    (Work.runIn (world later) (documenter.documentFiles [upper] none)).2.tree.read lower =
      (run later).2.tree.read lower := by decide +kernel

/-- The second file is as it was: the user cancelled before it got a block. -/
theorem documentFiles_cancelled_later :
    run later = (.error .cancelled, (run later).2) ∧
      ∃ began t rounds, documenter.BrokenOff none [upper] lower (world later) began (run later).2 t rounds ∧
        (run later).2.tree.read lower = .ok t ∧ ∀ r ∈ rounds, r.blocks = [] := by
  obtain ⟨hfailure, hfile, hread⟩ := ended_later
  have hrun := eq_of_failure? hfailure
  obtain ⟨-, done, file, rest, began, t, rounds, hfiles, hbroken⟩ :=
    Documenter.documentFiles_cancelled [upper, lower] none hrun
  obtain ⟨q, s, deeds, hq, -, hdeeds⟩ := hbroken.answer
  rw [hdeeds, lastFile?, List.getLast?_concat, Option.some.injEq, hq] at hfile
  subst hfile
  have hdone : done = [upper] := by
    match done, hfiles with
    | [], hfiles => cases hfiles
    | [_], hfiles =>
      cases hfiles
      rfl
    | _ :: _ :: done, hfiles => simp at hfiles
  subst hdone
  obtain ⟨report, w₁, hbefore, hbegan⟩ := hbroken.before
  cases hbegan
  have hkept : (run later).2.tree.read lower = .ok t := by
    rw [← hread, hbefore]
    exact hbroken.read
  exact ⟨hrun, began, t, rounds, hbroken, hkept, (hbroken.kept.1 hkept).resolve_left (by decide)⟩

/-- The user gives up the first file when it has its header. -/
def midway : List (Prepared Text) := [.give "A module.".toList, .cancel]

def fileRun : Except Failure (Option FileReport) × World Script :=
  Work.runIn (world midway) (documenter.documentFile upper none)

set_option maxRecDepth 100000 in
theorem ended_midway : failure? fileRun = some .cancelled ∧ fileRun.2.tree.read upper = .ok headed ∧
    (world midway).tree.read upper = .ok text := by decide +kernel

/-- The file in progress keeps its header. -/
theorem header_left :
    ∃ w', Work.runIn (world midway) (documenter.documentFiles [upper, lower] none) = (.error .cancelled, w') ∧
      Work.runIn (world midway) (documenter.documentFile upper none) = (.error .cancelled, w') ∧
      (world midway).tree.read upper = .ok text ∧ w'.tree.read upper = .ok headed ∧ headed ≠ text := by
  obtain ⟨hfailure, hheaded, htext⟩ := ended_midway
  have hfile : Work.runIn (world midway) (documenter.documentFile upper none) = (.error .cancelled, fileRun.2) :=
    eq_of_failure? hfailure
  exact ⟨fileRun.2, Documenter.documentFiles_of_cancelled hfile [lower], hfile, htext, hheaded, by decide⟩

end GivenUp
end DocScribe
