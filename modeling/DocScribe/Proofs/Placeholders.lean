/-
Documenting with placeholders.

With placeholders nothing is up to the user: each construct without
documentation gets the block that is made of them, and when the groups of the
grammars are in order and the file takes what is written, each kind of construct
of it is documented (`Documenter.documentKinds_placeholder`).
-/
import DocScribe.Proofs.Deeds
import DocScribe.Proofs.Rounds
import DocScribe.Proofs.Threads
import DocScribe.Proofs.TreeFacts

namespace DocScribe

/-! ## Placeholders for answers -/

/-- Work that always succeeds with the same value and leaves the files as they
are. -/
def Work.Gives {σ α : Type} (x : Work σ α) (a : α) : Prop :=
  ∀ w, ∃ w', Work.runIn w x = (.ok a, w') ∧ w'.tree = w.tree

namespace Work.Gives

variable {σ α β : Type}

theorem pure (a : α) : Gives (Pure.pure a : Work σ α) a := fun w => ⟨w, rfl, rfl⟩

theorem bind {x : Work σ α} {f : α → Work σ β} {a : α} {b : β} (hx : Gives x a) (hf : Gives (f a) b) :
    Gives (x >>= f) b := by
  intro w
  obtain ⟨w₁, hrun, htree⟩ := hx w
  obtain ⟨w₂, hrun', htree'⟩ := hf w₁
  exact ⟨w₂, Work.runIn_bind_ok.2 ⟨a, w₁, hrun, hrun'⟩, htree'.trans htree⟩

theorem map {x : Work σ α} {a : α} (f : α → β) (hx : Gives x a) : Gives (f <$> x) (f a) := by
  rw [map_eq_pure_bind]
  exact hx.bind (.pure (f a))

theorem note (events : List Event) : Gives (Work.note events : Work σ Unit) () := fun _ => ⟨_, rfl, rfl⟩

theorem ask {p : Prompter σ} {q : Question} {a : q.Answer} (h : ∀ s, (p.answer q s).1 = .ok a) :
    Gives (Work.ask p q) a := fun w => ⟨_, Prod.ext (h w.prompt) rfl, rfl⟩

end Work.Gives

/-- A candidate with the block that is made of placeholders. -/
def Candidate.withPlaceholder (style : Style) (c : Candidate) : Candidate :=
  { c with block := some (placeholderBlock style c) }

theorem filterMap_withPlaceholder (style : Style) (cs : List Candidate) :
    (cs.map (Candidate.withPlaceholder style)).filterMap (·.block) = cs.map (placeholderBlock style) := by
  rw [List.filterMap_map, ← List.filterMap_eq_map']
  rfl

/-- Nobody is asked: placeholders are put where documentation is missing. -/
structure Documenter.Unasked (d : Documenter Unit) : Prop where
  placeholder : d.prompter = .placeholder
  unreviewed : d.review = false

/-- Nobody is asked: placeholders are put where documentation is missing, and
files are written. -/
structure Documenter.Unattended (d : Documenter Unit) : Prop where
  placeholder : d.prompter = .placeholder
  unreviewed : d.review = false
  writes : d.dryRun = false

theorem Documenter.Unattended.unasked {d : Documenter Unit} (hd : d.Unattended) : d.Unasked :=
  ⟨hd.placeholder, hd.unreviewed⟩

namespace Documenter

variable {d : Documenter Unit}

theorem gives_ask (hd : d.Unasked) {q : Question} {a : q.Answer}
    (h : ∀ s, (Prompter.placeholder.answer q s).1 = .ok a) : (Work.ask d.prompter q).Gives a := by
  rw [hd.placeholder]
  exact .ask h

theorem gives_describeArguments (hd : d.Unasked) (c : Candidate) (addType : Bool) (names : List Text) :
    (d.describeArguments c addType names).Gives
      (names.map fun name => ⟨name, if addType then some "<type>" else none, "<arg docstring>"⟩) := by
  induction names with
  | nil => exact .pure _
  | cons name names ih =>
    have hdoc : (Work.ask d.prompter (.argumentDoc c name)).Gives "<arg docstring>".toList :=
      gives_ask hd fun _ => rfl
    have htype : (Work.ask d.prompter (.argumentType c name)).Gives "<type>".toList :=
      gives_ask hd fun _ => rfl
    cases addType with
    | true =>
      refine .bind (.map some htype) ?_
      refine .bind hdoc ?_
      exact .bind ih (.pure _)
    | false =>
      refine .bind (.pure none) ?_
      refine .bind hdoc ?_
      exact .bind ih (.pure _)

theorem gives_blockFor (hd : d.Unasked) {style : Style} (hstyle : style.template = none) (c : Candidate) :
    (d.blockFor style c).Gives (some (placeholderBlock style c)) := by
  have hdocstring : (Work.ask d.prompter (.docstring c)).Gives "<docstring>".toList :=
    gives_ask hd fun _ => rfl
  have hdescribe : (d.describe c style.arguments.addType).Gives (placeholderText style c) :=
    .bind hdocstring (.bind (gives_describeArguments hd c _ c.arguments) (.pure _))
  refine .bind hdescribe ?_
  rw [render_placeholder hstyle]
  show (d.reviewed? c _).Gives _
  rw [reviewed?, hd.unreviewed]
  exact .pure _

theorem gives_writeBlocks (hd : d.Unasked) {style : Style} (hstyle : style.template = none)
    (cs : List Candidate) : (d.writeBlocks style cs).Gives (cs.map (Candidate.withPlaceholder style)) := by
  induction cs with
  | nil => exact .pure _
  | cons c cs ih => exact .bind (gives_blockFor hd hstyle c) (.bind ih (.pure _))

theorem gives_admits (hd : d.Unasked) (file : Path) : (d.admits file).Gives true := by
  have hconfirm : (Work.ask d.prompter (.confirm file)).Gives true := gives_ask hd fun _ => rfl
  have hasked : Work.Gives (do
      let wanted ← Work.ask d.prompter (.confirm file)
      unless wanted do Work.note [.declined file]
      pure wanted) true := by
    refine .bind hconfirm ?_
    exact .pure true
  intro w
  by_cases hknown : w.announced.any fun known => known.same file
  · exact ⟨w, Work.runIn_bind_ok.2 ⟨false, w, if_pos hknown, rfl⟩, rfl⟩
  · obtain ⟨w', hrun, htree⟩ := hasked
      { w with prompt := d.prompter.announce file w.prompt, announced := file :: w.announced
               deeds := w.deeds ++ [.announced file] }
    exact ⟨w', Work.runIn_bind_ok.2 ⟨true, _, if_neg hknown, hrun⟩, htree⟩

end Documenter

/-! ## What is reported -/

namespace KindPlan

/-- The names of the constructs of a text that have no documentation. -/
def names (k : KindPlan) (file : Path) (t : Text) : List Text :=
  (scan k.grammar file t none).1.candidates.map (·.name)

/-- What there is to report of a text, unless it is nothing. -/
def listed (k : KindPlan) (file : Path) (t : Text) : List KindReport :=
  if (k.names file t).isEmpty then [] else [⟨k.grammar.shape.kind, k.names file t⟩]

/-- What there is to report when each kind of construct is documented before
the next one is looked for. -/
def reported (file : Path) : List KindPlan → Text → List KindReport
  | [], _ => []
  | k :: kinds, t => k.listed file t ++ reported file kinds (k.filled file t)

variable {k : KindPlan} {file : Path} {t : Text}

theorem names_eq_nil_iff : k.names file t = [] ↔ (scan k.grammar file t none).1.candidates = [] := List.map_eq_nil_iff

theorem filled_of_none (h : (scan k.grammar file t none).1.candidates = []) : k.filled file t = t := by
  rw [filled, blocks, h]
  rfl

theorem foldl_filled_of_none {kinds : List KindPlan} (h : ∀ k ∈ kinds, (scan k.grammar file t none).1.candidates = []) :
    kinds.foldl (fun t k => k.filled file t) t = t := by
  induction kinds with
  | nil => rfl
  | cons k kinds ih =>
    obtain ⟨hk, hkinds⟩ := List.forall_mem_cons.1 h
    rw [List.foldl_cons, filled_of_none hk, ih hkinds]

/-- Nothing is reported exactly when no kind has anything to be documented. -/
theorem reported_eq_nil_iff {kinds : List KindPlan} :
    reported file kinds t = [] ↔ ∀ k ∈ kinds, (scan k.grammar file t none).1.candidates = [] := by
  induction kinds with
  | nil => simp [reported]
  | cons k kinds ih =>
    have hlisted : k.listed file t = [] ↔ (scan k.grammar file t none).1.candidates = [] := by
      simp [listed, ← names_eq_nil_iff]
    rw [reported, List.append_eq_nil_iff, hlisted, List.forall_mem_cons]
    refine and_congr_right fun hk => ?_
    rw [filled_of_none hk, ih]

end KindPlan

namespace Documenter

variable {d : Documenter Unit} {w w' : World Unit} {file : Path}

/-- What one kind of construct adds to a report. -/
theorem documentKind_kinds (hd : d.Unasked) {k : KindPlan} (hstyle : k.style.template = none) {draft draft' : Draft}
    (h : Work.runIn w (d.documentKind file none k draft) = (.ok (some draft'), w')) :
    draft'.content = k.filled file draft.content ∧ draft'.kinds = draft.kinds ++ k.listed file draft.content := by
  have hrun := documentKind_run d file none k draft w
  generalize Work.runIn w (d.documentKind file none k draft) = out at hrun h
  have hfound : found k file none draft = (scan k.grammar file draft.content none).1.candidates := rfl
  cases hrun with
  | idle hnone _ =>
    cases h
    rw [hfound] at hnone
    rw [KindPlan.filled_of_none hnone, KindPlan.listed, KindPlan.names_eq_nil_iff.2 hnone]
    simp
  | @refused answer _ _ _ _ => cases answer <;> cases h
  | @worked w₁ _ ended _ hfills =>
    cases hfills with
    | failed => cases h
    | refused => cases h
    | @filled got _ next w₂ _ _ hgot _ hdraft _ =>
      cases h
      obtain ⟨_, hgives, -⟩ := gives_writeBlocks hd hstyle (found k file none draft) w₁
      rw [hgives] at hgot
      cases hgot
      have hblocks : ((found k file none draft).map (Candidate.withPlaceholder k.style)).filterMap (·.block) =
          k.blocks file draft.content := filterMap_withPlaceholder k.style _
      have hnames : (((found k file none draft).map (Candidate.withPlaceholder k.style)).filter
          (·.block.isSome)).map (·.name) = k.names file draft.content := by
        rw [List.filter_eq_self.2 (by simp [Candidate.withPlaceholder]), List.map_map]
        rfl
      have hempty : k.blocks file draft.content = [] ↔ k.names file draft.content = [] := by
        rw [KindPlan.blocks, KindPlan.names, List.map_eq_nil_iff, List.map_eq_nil_iff]
      rcases Draft.filled?_cases hdraft with ⟨hnone, rfl⟩ | ⟨hsome, happly, hkinds⟩
      · rw [hblocks, hempty] at hnone
        rw [KindPlan.filled_of_none (KindPlan.names_eq_nil_iff.1 hnone), KindPlan.listed, hnone]
        simp
      · rw [hblocks] at hsome happly
        rw [hnames] at hkinds
        have hsome' : (k.names file draft.content).isEmpty = false := by
          rw [List.isEmpty_eq_false_iff, Ne, ← hempty]
          exact hsome
        rw [KindPlan.filled, happly, KindPlan.listed, hsome', hkinds]
        exact ⟨rfl, rfl⟩

theorem documentKinds_kinds (hd : d.Unasked) {kinds : List KindPlan} (hstyle : ∀ k ∈ kinds, k.style.template = none)
    {draft draft' : Draft} (h : Work.runIn w (d.documentKinds file none kinds draft) = (.ok (some draft'), w')) :
    draft'.kinds = draft.kinds ++ KindPlan.reported file kinds draft.content := by
  induction kinds generalizing draft w with
  | nil =>
    cases h
    simp [KindPlan.reported]
  | cons k kinds ih =>
    obtain ⟨hstyle, hstyles⟩ := List.forall_mem_cons.1 hstyle
    unfold documentKinds at h
    obtain ⟨next?, w₁, hkind, h⟩ := Work.runIn_bind_ok.1 h
    cases next? with
    | none => cases h
    | some next =>
      obtain ⟨hcontent, hkinds⟩ := documentKind_kinds hd hstyle hkind
      rw [ih hstyles h, hkinds, hcontent, List.append_assoc, KindPlan.reported]

end Documenter

/-! ## Success -/

theorem Draft.withBlocks?_placeholder {k : KindPlan} {draft : Draft} (ho : k.grammar.OrderedIn draft.content)
    (file : Path) (kind : Kind) :
    ∃ draft', draft.withBlocks? kind
        ((scan k.grammar file draft.content none).1.candidates.map (Candidate.withPlaceholder k.style)) =
          some draft' := by
  have hend : ∀ b ∈ k.blocks file draft.content, b.Ended := by
    intro b hb
    obtain ⟨c, -, rfl⟩ := List.mem_map.1 hb
    exact indentBlock_ended _ _ _
  obtain ⟨layer, -, hrecord, -⟩ :=
    (stacked_of_scan ho (k.blocksFor file draft.content {})).moves hend draft.history
  rw [withBlocks?, filterMap_withPlaceholder, ← KindPlan.blocks, hrecord, KindPlan.applyBlocks?_blocks ho]
  exact ⟨_, rfl⟩

namespace Documenter

variable {d : Documenter Unit} {w w' : World Unit} {file : Path}

/-- Unless nothing is written, the file holds the text and takes any other. -/
def Saved (d : Documenter Unit) (w : World Unit) (file : Path) (t : Text) : Prop :=
  d.dryRun = false → w.tree.read file = .ok t ∧ w.tree.Accepts file

theorem Saved.of_tree_eq {t : Text} (h : d.Saved w file t) (htree : w'.tree = w.tree) : d.Saved w' file t := by
  unfold Saved
  rwa [htree]

theorem fillKind_placeholder (hd : d.Unasked) {k : KindPlan} (hstyle : k.style.template = none)
    {draft : Draft} (ho : k.grammar.OrderedIn draft.content) (hsaved : d.Saved w file draft.content)
    (hsome : (scan k.grammar file draft.content none).1.candidates ≠ []) :
    ∃ draft' w', Work.runIn w (d.fillKind file k (scan k.grammar file draft.content none).1.candidates draft) =
        (.ok draft', w') ∧ d.Saved w' file draft'.content := by
  obtain ⟨w₁, hblocks, htree⟩ :=
    gives_writeBlocks hd hstyle (scan k.grammar file draft.content none).1.candidates w
  obtain ⟨draft', hdraft'⟩ := draft.withBlocks?_placeholder ho file k.grammar.shape.kind
  unfold fillKind
  rw [Work.runIn_bind_of_ok hblocks, filterMap_withPlaceholder, if_neg (by simpa using hsome), hdraft']
  cases hdry : d.dryRun with
  | true => exact ⟨draft', w₁, rfl, by simp [Saved, hdry]⟩
  | false =>
    obtain ⟨hread, haccepts⟩ := hsaved.of_tree_eq htree hdry
    obtain ⟨tree, hwrite⟩ := haccepts.exists_write hread draft'.content
    exact ⟨draft', _, Work.runIn_bind_of_ok (Work.runIn_write hwrite),
      fun _ => ⟨FileTree.read_of_write hread hwrite, haccepts.written hread hwrite⟩⟩

/-- One kind of construct: each gets its placeholders, and the file is written
when there are any. -/
theorem documentKind_placeholder (hd : d.Unasked) {k : KindPlan} (hstyle : k.style.template = none)
    {draft : Draft} (ho : k.grammar.OrderedIn draft.content) (hsaved : d.Saved w file draft.content) :
    ∃ draft' w', Work.runIn w (d.documentKind file none k draft) = (.ok (some draft'), w') ∧
      d.Saved w' file draft'.content := by
  obtain ⟨w₁, hnote, htree⟩ := Work.Gives.note (σ := Unit) (scan k.grammar file draft.content none).2 w
  by_cases hnone : (scan k.grammar file draft.content none).1.candidates = []
  · refine ⟨draft, w₁, Work.runIn_bind_ok.2 ⟨(), w₁, hnote, ?_⟩, hsaved.of_tree_eq htree⟩
    show Work.runIn w₁ (if (scan k.grammar file draft.content none).1.isEmpty then _ else _) = _
    rw [if_pos (by rw [Session.isEmpty, hnone]; rfl)]
    rfl
  · obtain ⟨w₂, hadmits, htree'⟩ := gives_admits hd file w₁
    obtain ⟨draft', w₃, hfill, hsaved'⟩ :=
      fillKind_placeholder hd hstyle ho ((hsaved.of_tree_eq htree).of_tree_eq htree') hnone
    refine ⟨draft', w₃, Work.runIn_bind_ok.2 ⟨(), w₁, hnote, ?_⟩, hsaved'⟩
    show Work.runIn w₁ (if (scan k.grammar file draft.content none).1.isEmpty then _ else _) = _
    rw [if_neg (by rwa [Session.isEmpty, List.isEmpty_iff])]
    exact Work.runIn_bind_ok.2 ⟨true, w₂, hadmits, Work.runIn_map_ok.2 ⟨draft', hfill, rfl⟩⟩

/-- **Kind after kind.** -/
theorem documentKinds_placeholder (hd : d.Unasked) {kinds : List KindPlan}
    (hstyle : ∀ k ∈ kinds, k.style.template = none) (ho : ∀ k ∈ kinds, ∀ t, k.grammar.OrderedIn t)
    (draft : Draft) (hsaved : d.Saved w file draft.content) :
    ∃ draft' w', Work.runIn w (d.documentKinds file none kinds draft) = (.ok (some draft'), w') ∧
      draft'.content = kinds.foldl (fun t k => k.filled file t) draft.content ∧ d.Saved w' file draft'.content := by
  induction kinds generalizing draft w with
  | nil => exact ⟨draft, w, rfl, rfl, hsaved⟩
  | cons k kinds ih =>
    obtain ⟨hstyle, hstyles⟩ := List.forall_mem_cons.1 hstyle
    obtain ⟨ho, hos⟩ := List.forall_mem_cons.1 ho
    obtain ⟨next, w₁, hkind, hsaved₁⟩ := documentKind_placeholder hd hstyle (ho _) hsaved
    obtain ⟨draft', w₂, hrest, hfilled, hsaved₂⟩ := ih hstyles hos next hsaved₁
    refine ⟨draft', w₂, Work.runIn_bind_ok.2 ⟨some next, w₁, hkind, hrest⟩, ?_, hsaved₂⟩
    rw [hfilled, (documentKind_kinds hd hstyle hkind).1, List.foldl_cons]

/-- What comes of documenting a file with placeholders. -/
theorem documentFile_placeholder (hd : d.Unattended) {plan : FormatPlan}
    (hplan : d.catalog.planFor file = .ok plan)
    (hstyle : ∀ k ∈ plan.kinds, k.style.template = none) (ho : ∀ k ∈ plan.kinds, ∀ t, k.grammar.OrderedIn t)
    {t : Text} (hread : w.tree.read file = .ok t) (haccepts : w.tree.Accepts file) :
    ∃ r w', Work.runIn w (d.documentFile file none) = (.ok (some r), w') ∧ r.before = t ∧
      r.updated = plan.kinds.foldl (fun t k => k.filled file t) t ∧ w'.tree.read file = .ok r.updated ∧
      w'.tree.Accepts file ∧
      (r.kinds = [] ↔ ∀ k ∈ plan.kinds, (scan k.grammar file t none).1.candidates = []) := by
  obtain ⟨draft, w', hrun, hcontent, hsaved⟩ :=
    documentKinds_placeholder hd.unasked hstyle ho { content := t } fun _ => ⟨hread, haccepts⟩
  have hkinds : draft.kinds = KindPlan.reported file plan.kinds t := documentKinds_kinds hd.unasked hstyle hrun
  obtain ⟨hread', haccepts'⟩ := hsaved hd.writes
  refine ⟨⟨file, t, draft.content, draft.kinds⟩, w', ?_, rfl, hcontent, hread', haccepts', ?_⟩
  · rw [documentFile, hplan]
    exact Work.runIn_bind_ok.2 ⟨t, w, Work.runIn_read hread, Work.runIn_bind_ok.2 ⟨some draft, w', hrun, rfl⟩⟩
  · rw [hkinds, KindPlan.reported_eq_nil_iff]

end Documenter
end DocScribe
