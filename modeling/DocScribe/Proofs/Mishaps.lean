/-
Why the work on a file fails.

`Documenter.Mishap` lists the causes. Work on a file that can be read writes to
this file only and fails for one of them only (`Work.Blames`), which follows
from the rules for its steps. It does fail when the file has no known format or
cannot be read, when a question gets no answer (`Work.Insists`), and when it
comes to a construct for which no block can be made (`Documenter.ComesTo`). A run
is never stopped by a mishap (`Documenter.documentFiles_error`), and its report
names exactly the files with one (`Documenter.mem_failures_iff`).
-/
import DocScribe.Proofs.Cancelling
import DocScribe.Proofs.Rounds

namespace DocScribe

/-! ## Work that fails for known causes -/

namespace Work

variable {σ α β : Type} {began : FileTree} {file : Path} {cause : Failure → Prop}

/-- Work on a file that writes to this file only and fails for some causes
only; `began` is the tree with which the work on the file began. -/
def Blames (began : FileTree) (file : Path) (cause : Failure → Prop) (x : Work σ α) : Prop :=
  ∀ w : World σ, (∃ news, began.Edits file news w.tree) →
    (∃ news, began.Edits file news (runIn w x).2.tree) ∧ ∀ e, (runIn w x).1 = .error e → cause e

namespace Blames

/-- Work that always succeeds and writes nothing. -/
theorem of_ok {x : Work σ α} (h : ∀ w, ∃ a w', runIn w x = (.ok a, w') ∧ w'.tree = w.tree) :
    Blames began file cause x := by
  intro w hw
  obtain ⟨a, w', hx, htree⟩ := h w
  rw [hx]
  exact ⟨by rwa [htree], fun e he => nomatch he⟩

theorem pure (a : α) : Blames began file cause (Pure.pure a : Work σ α) := .of_ok fun w => ⟨a, w, rfl, rfl⟩

theorem note (events : List Event) : Blames began file cause (Work.note events : Work σ Unit) :=
  .of_ok fun _ => ⟨(), _, rfl, rfl⟩

theorem throw {e : Failure} (he : cause e) : Blames began file cause (MonadExcept.throw e : Work σ α) :=
  fun _ hw => ⟨hw, fun _ h => Except.error.inj h ▸ he⟩

theorem ask {p : Prompter σ} {q : Question} (h : ∀ s e, (p.answer q s).1 = .error e → cause e) :
    Blames began file cause (Work.ask p q) :=
  fun w hw => ⟨hw, fun e => h w.prompt e⟩

theorem announce (p : Prompter σ) (f : Path) : Blames began file cause (Work.announce p f) := by
  refine .of_ok fun w => ?_
  by_cases hknown : w.Knows f
  · exact ⟨false, w, if_pos hknown, rfl⟩
  · exact ⟨true, _, if_neg hknown, rfl⟩

/-- A file that could be read is written unless the text was refused from the
beginning. -/
theorem write {text t : Text} (hread : began.read file = .ok text)
    (h : ∀ fault, began.write file t = .error fault → cause (.fileAccess file.text fault)) :
    Blames began file cause (Work.write file t : Work σ Unit) := by
  rintro w ⟨news, hedits⟩
  cases hwrite : w.tree.write file t with
  | ok tree =>
    rw [runIn_write hwrite]
    exact ⟨⟨_, hedits.snoc hread hwrite⟩, fun e he => nomatch he⟩
  | error fault =>
    rw [runIn_write_error hwrite]
    refine ⟨⟨news, hedits⟩, fun e he => ?_⟩
    cases he
    exact h fault ((hedits.write_eq_error_iff hread).1 hwrite)

theorem bind_of_ok {x : Work σ α} {f : α → Work σ β} (hx : Blames began file cause x)
    (hf : ∀ w a w', runIn w x = (.ok a, w') → Blames began file cause (f a)) :
    Blames began file cause (x >>= f) := by
  intro w hw
  obtain ⟨hedits, hcause⟩ := hx w hw
  rcases hfirst : runIn w x with ⟨e | a, w₁⟩
  · rw [hfirst] at hedits hcause
    rw [runIn_bind_of_error hfirst]
    exact ⟨hedits, fun e' he' => hcause e' (congrArg Except.error (Except.error.inj he'))⟩
  · rw [hfirst] at hedits
    rw [runIn_bind_of_ok hfirst]
    exact hf w a w₁ hfirst w₁ hedits

end Blames

/-- Work that does not go on without an answer: it adds to what was done, and it
fails with what came in place of an answer. -/
def Insists (x : Work σ α) : Prop :=
  ∀ w : World σ, ∃ new, (runIn w x).2.deeds = w.deeds ++ new ∧
    ∀ q e, .asked q (.error e) ∈ new → (runIn w x).1 = .error e

namespace Insists

/-- Work that asks nothing. -/
theorem of_unasked {x : Work σ α}
    (h : ∀ w, ∃ new, (runIn w x).2.deeds = w.deeds ++ new ∧ ∀ q answer, .asked q answer ∉ new) : Insists x := by
  intro w
  obtain ⟨new, hdeeds, hnone⟩ := h w
  exact ⟨new, hdeeds, fun q e hq => absurd hq (hnone q (.error e))⟩

/-- Work that leaves no trace. -/
theorem of_deeds_eq {x : Work σ α} (h : ∀ w, (runIn w x).2.deeds = w.deeds) : Insists x :=
  .of_unasked fun w => ⟨[], by rw [h, List.append_nil], by simp⟩

theorem pure (a : α) : Insists (Pure.pure a : Work σ α) := .of_deeds_eq fun _ => rfl

theorem throw (e : Failure) : Insists (MonadExcept.throw e : Work σ α) := .of_deeds_eq fun _ => rfl

theorem note (events : List Event) : Insists (Work.note events : Work σ Unit) := .of_deeds_eq fun _ => rfl

theorem ask (p : Prompter σ) (q : Question) : Insists (Work.ask p q) := by
  intro w
  refine ⟨[.asked q (p.answer q w.prompt).1], rfl, fun q' e hasked => ?_⟩
  obtain ⟨rfl, hanswer⟩ := Deed.asked.inj (List.mem_singleton.1 hasked)
  exact (eq_of_heq hanswer).symm

theorem announce (p : Prompter σ) (f : Path) : Insists (Work.announce p f) := by
  refine .of_unasked fun w => ?_
  by_cases hknown : w.Knows f
  · have hrun : runIn w (Work.announce p f) = (.ok false, w) := if_pos hknown
    exact ⟨[], by rw [hrun, List.append_nil], by simp⟩
  · have hrun : runIn w (Work.announce p f) = (.ok true, _) := if_neg hknown
    exact ⟨[.announced f], by rw [hrun], by simp⟩

theorem read (f : Path) : Insists (Work.read f : Work σ Text) := by
  refine .of_deeds_eq fun w => ?_
  cases hread : w.tree.read f with
  | ok t => rw [runIn_read hread]
  | error fault => rw [runIn_read_error hread]

theorem write (f : Path) (t : Text) : Insists (Work.write f t : Work σ Unit) := by
  refine .of_unasked fun w => ?_
  cases hwrite : w.tree.write f t with
  | ok tree => exact ⟨[.wrote f t (.ok ())], by rw [runIn_write hwrite], by simp⟩
  | error fault => exact ⟨[.wrote f t (.error fault)], by rw [runIn_write_error hwrite], by simp⟩

/-- Work that has not failed has got all its answers so far. -/
theorem bind_of_ok {x : Work σ α} {f : α → Work σ β} (hx : Insists x)
    (hf : ∀ w a w', runIn w x = (.ok a, w') → Insists (f a)) : Insists (x >>= f) := by
  intro w
  obtain ⟨new, hdeeds, hfails⟩ := hx w
  rcases hfirst : runIn w x with ⟨e | a, w₁⟩ <;> rw [hfirst] at hdeeds hfails
  · rw [runIn_bind_of_error hfirst]
    refine ⟨new, hdeeds, fun q e' hq => ?_⟩
    rw [Except.error.inj (hfails q e' hq)]
  · rw [runIn_bind_of_ok hfirst]
    obtain ⟨later, hlater, hfails'⟩ := hf w a w₁ hfirst w₁
    refine ⟨new ++ later, by rw [hlater, hdeeds, List.append_assoc], fun q e hq => ?_⟩
    rcases List.mem_append.1 hq with hq | hq
    · cases hfails q e hq
    · exact hfails' q e hq

end Insists
end Work

/-! ## The work on a file -/

theorem Catalog.planFor_eq_error {catalog : Catalog} {file : Path} {e : Failure} :
    catalog.planFor file = .error e ↔ catalog.forPath? file = none ∧ .unknownFormat file.text = e := by
  unfold planFor
  cases catalog.forPath? file <;> simp

/-- A template that cannot be read cannot be filled in. -/
theorem Style.render_unread {style : Style} {template : Text} {fault : Template.Fault}
    (hstyle : style.template = some template) (hparse : Template.parse template = .error fault) (c : Candidate)
    (text : DocText) : style.render c text = .error (.template fault.message) := by
  have hfill : Template.renderText template (style.bindings c text) = .error fault := by
    simp only [Template.renderText, hparse]
    rfl
  simp only [render, layout, hstyle, hfill]
  rfl

theorem RunReport.mem_failures {report : RunReport} {file : Path} {e : Failure} :
    (file, e) ∈ report.failures ↔ (file, .failed e) ∈ report.outcomes := by
  unfold failures
  rw [List.mem_filterMap]
  constructor
  · rintro ⟨⟨p, outcome⟩, hmem, h⟩
    cases outcome with
    | failed e' =>
      cases h
      exact hmem
    | _ => cases h
  · exact fun h => ⟨_, h, rfl⟩

namespace Documenter

variable {σ : Type}

/-- Why the work on a file fails that begins in a world. -/
inductive Mishap (d : Documenter σ) (began : World σ) (file : Path) : Failure → Prop
  | unknownFormat (h : d.catalog.forPath? file = none) : Mishap d began file (.unknownFormat file.text)
  /-- The file is not there, is no file, or does not hold text. -/
  | unreadable {fault : AccessFault} (h : began.tree.read file = .error fault) :
      Mishap d began file (.fileAccess file.text fault)
  /-- The file could be read, but a new text of it is refused. -/
  | unwritable {t new : Text} {fault : AccessFault} (hdry : d.dryRun = false) (hread : began.tree.read file = .ok t)
      (h : began.tree.write file new = .error fault) : Mishap d began file (.fileAccess file.text fault)
  /-- A question about the file got no answer. -/
  | unanswered {q : Question} {s : σ} {e : Failure} (hq : q.file = file) (h : (d.prompter.answer q s).1 = .error e) :
      Mishap d began file e
  /-- The template of a kind of construct cannot be filled in. -/
  | unrendered {plan : FormatPlan} {k : KindPlan} {c : Candidate} {text : DocText} {e : Failure}
      (hplan : d.catalog.planFor file = .ok plan) (hk : k ∈ plan.kinds) (h : k.style.render c text = .error e) :
      Mishap d began file e
  /-- The tokens of a kind of construct match out of their order. -/
  | unordered {plan : FormatPlan} {k : KindPlan} {t : Text} (hplan : d.catalog.planFor file = .ok plan)
      (hk : k ∈ plan.kinds) (h : ¬k.grammar.OrderedIn t) : Mishap d began file .offset

variable {d : Documenter σ} {w w' began : World σ} {file : Path} {change : Option FileChange}
  {plan : FormatPlan} {k : KindPlan}

theorem stepwise_blames (d : Documenter σ) (began : World σ) (file : Path) :
    Work.Stepwise fun _ (x : Work σ _) _ => x.Blames began.tree file (d.Mishap began file) :=
  ⟨.pure, .note, .bind_of_ok⟩

theorem blames_ask {q : Question} (hq : q.file = file) :
    (Work.ask d.prompter q).Blames began.tree file (d.Mishap began file) :=
  .ask fun _ _ h => .unanswered hq h

theorem inStep_blames (hplan : d.catalog.planFor file = .ok plan) (hk : k ∈ plan.kinds) :
    InStep (fun _ x _ => x.Blames began.tree file (d.Mishap began file)) file k.style d d where
  steps := stepwise_blames d began file
  review := rfl
  ask hq hc := blames_ask ((Question.file_eq hq).trans hc)
  unrendered hrender := .throw (.unrendered hplan hk hrender)

theorem blames_save {t : Text} (hread : began.tree.read file = .ok t) (new : Text) :
    (d.save file new).Blames began.tree file (d.Mishap began file) :=
  (stepwise_blames d began file).save (e := d) rfl fun hdry => .write hread fun _ => .unwritable hdry hread

/-- The blocks of the candidates of a scan have their places. -/
theorem exists_withBlocks? {draft : Draft} {got : List Candidate} (kind : Kind)
    (ho : k.grammar.OrderedIn draft.content)
    (hgot : Work.runIn w (d.writeBlocks k.style (found k file change draft)) = (.ok got, w')) :
    ∃ draft', draft.withBlocks? kind got = some draft' := by
  obtain ⟨picked, hfound, rfl, hfits⟩ := writeBlocks_picked hgot
  have hblocks : BlocksFor (found k file change draft) (picked.filterMap (·.2)) := by
    rw [← hfound]
    refine .of_picked ?_ fun p hp b hb => (hfits p hp b hb).1
    rw [hfound]
    exact nodup_candidates _ _ _ _ _
  have hend : ∀ b ∈ picked.filterMap (·.2), b.Ended := by
    intro b hb
    obtain ⟨p, hp, hpb⟩ := List.mem_filterMap.1 hb
    exact (hfits p hp b hpb).2
  obtain ⟨layer, u, hrecord, happly, -, -⟩ := (stacked_of_scan ho hblocks).moves hend draft.history
  have hsame : (picked.map fun p => { p.1 with block := p.2 : Candidate }).filterMap (·.block) =
      picked.filterMap (·.2) := List.filterMap_map
  unfold Draft.withBlocks?
  simp only [hsame, hrecord, happly, Option.bind_some, Option.map_some]
  exact ⟨_, rfl⟩

theorem blames_documentKinds (hplan : d.catalog.planFor file = .ok plan) {t : Text}
    (hread : began.tree.read file = .ok t) (change : Option FileChange) (draft : Draft) :
    (d.documentKinds file change plan.kinds draft).Blames began.tree file (d.Mishap began file) := by
  have hsteps := stepwise_blames d began file
  refine hsteps.documentKinds (e := d) (hsteps.admits (e := d) (.announce _ _) (blames_ask rfl))
    (fun k hk draft => ?_) draft
  refine (inStep_blames hplan hk).fillKind (fun c hc => file_of_mem_found hc) (fun w got w' hgot hnone => ?_)
    (blames_save hread)
  refine .throw (.unordered (t := draft.content) hplan hk fun ho => ?_)
  obtain ⟨draft', hsome⟩ := exists_withBlocks? k.grammar.shape.kind ho hgot
  rw [hnone] at hsome
  cases hsome

/-- **The work on a file fails by a mishap only.** -/
theorem mishap_of_documentFile {e : Failure} (h : Work.runIn w (d.documentFile file change) = (.error e, w')) :
    d.Mishap w file e := by
  unfold documentFile at h
  cases hplan : d.catalog.planFor file with
  | error e' =>
    rw [hplan] at h
    cases h
    obtain ⟨hnone, rfl⟩ := Catalog.planFor_eq_error.1 hplan
    exact .unknownFormat hnone
  | ok plan =>
    rw [hplan] at h
    dsimp only at h
    cases hread : w.tree.read file with
    | error fault =>
      rw [Work.runIn_bind_of_error (Work.runIn_read_error hread)] at h
      cases h
      exact .unreadable hread
    | ok t =>
      rw [Work.runIn_bind_of_ok (Work.runIn_read hread)] at h
      have hblames := (blames_documentKinds hplan hread change { content := t }).bind_of_ok
        fun _ draft? _ _ => .pure (draft?.map fun draft => FileReport.mk file t draft.content draft.kinds)
      exact (hblames w ⟨[], .refl w.tree file⟩).2 e (congrArg Prod.fst h)

/-! ## Work that has to fail -/

/-- Work on a file without a known format fails, and on one that cannot be
read. -/
theorem documentFile_fails (change : Option FileChange)
    (h : d.catalog.forPath? file = none ∨ ∃ fault, w.tree.read file = .error fault) :
    ∃ e, Work.runIn w (d.documentFile file change) = (.error e, w) ∧ e ≠ .cancelled := by
  unfold documentFile
  cases hplan : d.catalog.planFor file with
  | error e =>
    obtain ⟨-, rfl⟩ := Catalog.planFor_eq_error.1 hplan
    exact ⟨_, rfl, by simp⟩
  | ok plan =>
    have hknown : d.catalog.forPath? file ≠ none := fun hnone => by
      rw [Catalog.planFor_eq_error.2 ⟨hnone, rfl⟩] at hplan
      cases hplan
    obtain ⟨fault, hread⟩ := h.resolve_left hknown
    exact ⟨_, Work.runIn_bind_of_error (Work.runIn_read_error hread), by simp⟩

theorem insists_documentFile (d : Documenter σ) (file : Path) (change : Option FileChange) :
    (d.documentFile file change).Insists := by
  have hsteps : Work.Stepwise fun _ (x : Work σ _) _ => x.Insists := ⟨.pure, .note, .bind_of_ok⟩
  have hadmits : (d.admits file).Insists := hsteps.admits (e := d) (.announce _ _) (.ask _ _)
  have hstep (style : Style) : InStep (fun _ x _ => x.Insists) file style d d :=
    ⟨hsteps, rfl, fun _ _ => .ask _ _, fun _ => .throw _⟩
  have hsave (t : Text) : (d.save file t).Insists := hsteps.save (e := d) rfl fun _ => .write file t
  refine hsteps.documentFile (e := d) rfl (fun _ _ => .throw _) (.read file) fun plan _ draft => ?_
  refine hsteps.documentKinds (e := d) hadmits (fun k _ draft => ?_) draft
  exact (hstep k.style).fillKind (fun c hc => file_of_mem_found hc) (fun _ _ _ _ _ => .throw _) hsave

/-- **A question without an answer ends the work on a file.** -/
theorem documentFile_unanswered {new : List Deed} {q : Question} {e : Failure}
    (hdeeds : (Work.runIn w (d.documentFile file change)).2.deeds = w.deeds ++ new)
    (hq : .asked q (.error e) ∈ new) : (Work.runIn w (d.documentFile file change)).1 = .error e := by
  obtain ⟨new', hdeeds', hfails⟩ := insists_documentFile d file change w
  rw [List.append_cancel_left (hdeeds.symm.trans hdeeds')] at hq
  exact hfails q e hq

/-- The work on a file comes to a construct: the kinds before its own were
worked on to the end, and it is found in the draft that they left. -/
def ComesTo (d : Documenter σ) (began : World σ) (file : Path) (change : Option FileChange) (k : KindPlan)
    (c : Candidate) : Prop :=
  ∃ t plan earlier later draft w₁, began.tree.read file = .ok t ∧ d.catalog.planFor file = .ok plan ∧
    plan.kinds = earlier ++ k :: later ∧
    Work.runIn began (d.documentKinds file change earlier { content := t }) = (.ok (some draft), w₁) ∧
    c ∈ found k file change draft

/-- All candidates that got through have a block that could be made. -/
theorem rendered_of_writeBlocks {style : Style} {cs got : List Candidate}
    (h : Work.runIn w (d.writeBlocks style cs) = (.ok got, w')) : ∀ c ∈ cs, ∃ text b, style.render c text = .ok b := by
  induction cs generalizing got w w' with
  | nil => simp
  | cons c cs ih =>
    obtain ⟨block, w₁, hblock, h⟩ := Work.runIn_bind_ok.1 h
    obtain ⟨others, w₂, hothers, -⟩ := Work.runIn_bind_ok.1 h
    refine List.forall_mem_cons.2 ⟨?_, ih hothers⟩
    obtain ⟨text, w₃, -, hblock⟩ := Work.runIn_bind_ok.1 hblock
    cases hrender : style.render c text with
    | ok b => exact ⟨text, b, hrender⟩
    | error e =>
      rw [hrender] at hblock
      cases hblock

/-- Kinds of construct are worked on one after the other. -/
theorem runIn_documentKinds_append {earlier : List KindPlan} {draft next : Draft} {w₁ : World σ}
    (h : Work.runIn w (d.documentKinds file change earlier draft) = (.ok (some next), w₁)) (later : List KindPlan) :
    Work.runIn w (d.documentKinds file change (earlier ++ later) draft) =
      Work.runIn w₁ (d.documentKinds file change later next) := by
  induction earlier generalizing draft w with
  | nil =>
    cases h
    rfl
  | cons k earlier ih =>
    obtain ⟨draft?, w₂, hkind, h⟩ := Work.runIn_bind_ok.1 h
    rw [List.cons_append, documentKinds, Work.runIn_bind_of_ok hkind]
    cases draft? with
    | none => cases h
    | some draft' => exact ih h

/-- A kind of construct that was worked on to the end got all its blocks. -/
theorem rendered_of_documentKind {draft draft' : Draft}
    (h : Work.runIn w (d.documentKind file change k draft) = (.ok (some draft'), w')) :
    ∀ c ∈ found k file change draft, ∃ text b, k.style.render c text = .ok b := by
  have hrun := documentKind_run d file change k draft w
  generalize hout : Work.runIn w (d.documentKind file change k draft) = out at hrun
  rw [h] at hout
  cases hrun with
  | idle hnone hgrows => simp [hnone]
  | @refused answer _ hnew hanswer hgrows => cases answer <;> cases hout
  | worked hadmitted hfills =>
    cases hfills with
    | failed hasked hgrows => cases hout
    | refused hasked hgrows hwrite hrefused => cases hout
    | filled hasked hgot hgrows hdraft hwrites => exact rendered_of_writeBlocks hgot

/-- **Work that comes to a construct for which no block can be made fails**,
unless the user does not want the file. -/
theorem ComesTo.unrendered {c : Candidate} (h : d.ComesTo w file change k c)
    (hnone : ∀ text, ∃ e, k.style.render c text = .error e) :
    (Work.runIn w (d.documentFile file change)).1 = .ok none ∨
      ∃ e, (Work.runIn w (d.documentFile file change)).1 = .error e := by
  obtain ⟨t, plan, earlier, later, draft, w₁, hread, hplan, hkinds, hearlier, hc⟩ := h
  have hrest := runIn_documentKinds_append hearlier (k :: later)
  unfold documentFile
  rw [hplan]
  dsimp only
  rw [Work.runIn_bind_of_ok (Work.runIn_read hread), ← map_eq_pure_bind, Work.runIn_map, hkinds, hrest, documentKinds]
  rcases hkind : Work.runIn w₁ (d.documentKind file change k draft) with ⟨e | draft?, w₂⟩
  · rw [Work.runIn_bind_of_error hkind]
    exact .inr ⟨e, rfl⟩
  rw [Work.runIn_bind_of_ok hkind]
  cases draft? with
  | none => exact .inl rfl
  | some draft' =>
    obtain ⟨text, b, hblock⟩ := rendered_of_documentKind hkind c hc
    obtain ⟨e, herror⟩ := hnone text
    rw [hblock] at herror
    cases herror

/-! ## Runs -/

/-- A file that a run comes to: the files before it were worked on, and the work
on it begins. -/
def Reaches (d : Documenter σ) (changes : Option ChangeSet) (files : List Path) (w : World σ) (file : Path)
    (began : World σ) : Prop :=
  ∃ done later report w₁, files = done ++ file :: later ∧
    Work.runIn w (d.documentFiles done changes) = (.ok report, w₁) ∧
    Work.runIn w₁ (changeFor file changes) = (.ok (changes.bind (·.find? file)), began)

/-- The work on a file of a run fails, and is not cancelled. -/
def FailsOn (d : Documenter σ) (changes : Option ChangeSet) (files : List Path) (w : World σ) (file : Path)
    (e : Failure) : Prop :=
  ∃ began, d.Reaches changes files w file began ∧
    (Work.runIn began (d.documentFile file (changes.bind (·.find? file)))).1 = .error e ∧ e ≠ .cancelled

variable {changes : Option ChangeSet} {files : List Path}

theorem FailsOn.mishap {e : Failure} (h : d.FailsOn changes files w file e) :
    ∃ began, d.Reaches changes files w file began ∧ d.Mishap began file e := by
  obtain ⟨began, hreaches, herror, -⟩ := h
  exact ⟨began, hreaches, mishap_of_documentFile (Prod.ext herror rfl)⟩

theorem Reaches.failsOn (h : d.Reaches changes files w file began)
    (hfile : d.catalog.forPath? file = none ∨ ∃ fault, began.tree.read file = .error fault) :
    ∃ e, d.FailsOn changes files w file e := by
  obtain ⟨e, herror, he⟩ := documentFile_fails (changes.bind (·.find? file)) hfile
  exact ⟨e, began, h, congrArg Prod.fst herror, he⟩

theorem Reaches.failsOn_unanswered (h : d.Reaches changes files w file began) {new : List Deed} {q : Question}
    {e : Failure} (hdeeds : (Work.runIn began (d.documentFile file (changes.bind (·.find? file)))).2.deeds =
      began.deeds ++ new) (hq : .asked q (.error e) ∈ new) (he : e ≠ .cancelled) :
    d.FailsOn changes files w file e :=
  ⟨began, h, documentFile_unanswered hdeeds hq, he⟩

theorem Reaches.failsOn_unrendered (h : d.Reaches changes files w file began) {c : Candidate}
    (hcomes : d.ComesTo began file (changes.bind (·.find? file)) k c)
    (hnone : ∀ text, ∃ e, k.style.render c text = .error e) :
    (Work.runIn began (d.documentFile file (changes.bind (·.find? file)))).1 = .ok none ∨
      (Work.runIn began (d.documentFile file (changes.bind (·.find? file)))).1 = .error .cancelled ∨
        ∃ e, d.FailsOn changes files w file e := by
  rcases hcomes.unrendered hnone with hrefused | ⟨e, herror⟩
  · exact .inl hrefused
  · by_cases he : e = .cancelled
    · exact .inr (.inl (he ▸ herror))
    · exact .inr (.inr ⟨e, began, h, herror, he⟩)

/-- In particular where the template of its kind cannot be read. -/
theorem Reaches.failsOn_unread (h : d.Reaches changes files w file began) {c : Candidate}
    (hcomes : d.ComesTo began file (changes.bind (·.find? file)) k c) {template : Text} {fault : Template.Fault}
    (hstyle : k.style.template = some template) (hparse : Template.parse template = .error fault) :
    (Work.runIn began (d.documentFile file (changes.bind (·.find? file)))).1 = .ok none ∨
      (Work.runIn began (d.documentFile file (changes.bind (·.find? file)))).1 = .error .cancelled ∨
        ∃ e, d.FailsOn changes files w file e :=
  h.failsOn_unrendered hcomes fun text => ⟨_, Style.render_unread hstyle hparse c text⟩

/-- A run fails only when it is cancelled. -/
theorem documentFiles_error {e : Failure} (h : Work.runIn w (d.documentFiles files changes) = (.error e, w')) :
    e = .cancelled := by
  induction files generalizing w with
  | nil => cases h
  | cons file files ih =>
    rw [documentFiles_cons] at h
    rcases hfirst : Work.runIn w (d.outcomeOf changes file) with ⟨e' | outcome, w₁⟩
    · rw [Work.runIn_bind_of_error hfirst] at h
      cases h
      exact (outcomeOf_cancelled hfirst).1
    · rw [Work.runIn_bind_of_ok hfirst, ← map_eq_pure_bind, Work.runIn_map] at h
      rcases hrest : Work.runIn w₁ (d.documentFiles files changes) with ⟨e' | report, w₂⟩
      · rw [hrest] at h
        cases h
        exact ih hrest
      · rw [hrest] at h
        cases h

/-- The outcome of a file is a failure exactly when the work on it fails. -/
theorem outcomeOf_failed {outcome : Outcome} {e : Failure}
    (h : Work.runIn w (d.outcomeOf changes file) = (.ok outcome, w')) :
    outcome = .failed e ↔ ∃ began, Work.runIn w (changeFor file changes) = (.ok (changes.bind (·.find? file)), began) ∧
      (Work.runIn began (d.documentFile file (changes.bind (·.find? file)))).1 = .error e ∧ e ≠ .cancelled := by
  obtain ⟨began, hchange, -⟩ := changeFor_run file changes w
  unfold outcomeOf at h
  rw [Work.runIn_bind_of_ok hchange, Work.runIn_bind_of_ok (Work.runIn_run _)] at h
  rw [hchange]
  simp only [Prod.mk.injEq, true_and, exists_eq_left']
  rcases hended : Work.runIn began (d.documentFile file (changes.bind (·.find? file))) with ⟨e' | report?, w₂⟩
  · rw [hended] at h
    cases e' with
    | cancelled => cases h
    | _ =>
      cases h
      constructor
      · rintro ⟨⟩
        exact ⟨rfl, by simp⟩
      · rintro ⟨⟨⟩, -⟩
        rfl
  · rw [hended] at h
    cases report? with
    | none =>
      cases h
      simp
    | some report =>
      cases h
      simp

theorem reaches_cons {outcome : Outcome} {first : Path} {w₁ : World σ}
    (hfirst : Work.runIn w (d.outcomeOf changes first) = (.ok outcome, w₁)) :
    d.Reaches changes (first :: files) w file began ↔
      (file = first ∧ Work.runIn w (changeFor first changes) = (.ok (changes.bind (·.find? first)), began)) ∨
        d.Reaches changes files w₁ file began := by
  constructor
  · rintro ⟨done, later, report, w₂, hfiles, hdone, hbegan⟩
    cases done with
    | nil =>
      cases hfiles
      cases hdone
      exact .inl ⟨rfl, hbegan⟩
    | cons p done =>
      cases hfiles
      rw [documentFiles_cons, Work.runIn_bind_of_ok hfirst] at hdone
      obtain ⟨rest, w₃, hrest, hdone⟩ := Work.runIn_bind_ok.1 hdone
      cases hdone
      exact .inr ⟨done, later, rest, _, rfl, hrest, hbegan⟩
  · rintro (⟨rfl, hbegan⟩ | ⟨done, later, report, w₂, rfl, hdone, hbegan⟩)
    · exact ⟨[], files, ⟨[]⟩, w, rfl, rfl, hbegan⟩
    · refine ⟨first :: done, later, ⟨(first, outcome) :: report.outcomes⟩, w₂, rfl, ?_, hbegan⟩
      rw [documentFiles_cons]
      exact Work.runIn_bind_ok.2 ⟨outcome, w₁, hfirst, Work.runIn_bind_ok.2 ⟨report, w₂, hdone, rfl⟩⟩

/-- **A report names exactly the files on which work failed, with the cause.** -/
theorem mem_failures_iff {report : RunReport} {e : Failure}
    (h : Work.runIn w (d.documentFiles files changes) = (.ok report, w')) :
    (file, e) ∈ report.failures ↔ d.FailsOn changes files w file e := by
  induction files generalizing w report with
  | nil =>
    cases h
    simp [RunReport.failures, FailsOn, Reaches]
  | cons first files ih =>
    rw [documentFiles_cons] at h
    obtain ⟨outcome, w₁, hfirst, h⟩ := Work.runIn_bind_ok.1 h
    obtain ⟨rest, w₂, hrest, h⟩ := Work.runIn_bind_ok.1 h
    cases h
    rw [RunReport.mem_failures, List.mem_cons, ← RunReport.mem_failures, ih hrest, FailsOn, FailsOn]
    simp only [reaches_cons hfirst, or_and_right, exists_or, Prod.mk.injEq, eq_comm (a := Outcome.failed e)]
    refine or_congr ?_ Iff.rfl
    constructor
    · rintro ⟨rfl, hfailed⟩
      obtain ⟨began, hbegan, hends⟩ := (outcomeOf_failed hfirst).1 hfailed
      exact ⟨began, ⟨rfl, hbegan⟩, hends⟩
    · rintro ⟨began, ⟨rfl, hbegan⟩, hends⟩
      exact ⟨rfl, (outcomeOf_failed hfirst).2 ⟨began, hbegan, hends⟩⟩

end Documenter
end DocScribe
