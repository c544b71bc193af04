/-
What the steps of documenting a file leave behind.

`World.Grows` says how one world comes of another by work on a file: what was
done, what was announced, and that the tree changed by what was written and by
nothing else. Describing constructs only puts questions (`Work.Inquires`). The
user is asked for consent the first time a file comes up
(`Documenter.admits_cases`), and a kind of construct is written once, after all
its candidates have been described (`Documenter.fillKind_run`).
`Documenter.documentKind_run` puts this together for one kind.
-/
import DocScribe.Proofs.StepRules
import DocScribe.Proofs.TreeFacts

namespace DocScribe

/-! ## Deeds -/

/-- A question about a construct of a file. -/
def Deed.Inquiry (file : Path) : Deed → Prop
  | .asked q _ => ∃ c, q.candidate? = some c ∧ c.file = file
  | _ => False

/-- What was written, and where. -/
def Deed.written? : Deed → Option (Path × Text)
  | .wrote file t (.ok _) => some (file, t)
  | _ => none

/-- Everything that was written, in order. -/
def written (deeds : List Deed) : List (Path × Text) := deeds.filterMap Deed.written?

@[simp] theorem written_append (a b : List Deed) : written (a ++ b) = written a ++ written b :=
  List.filterMap_append

theorem written_map_wrote (file : Path) (ts : List Text) :
    written (ts.map (.wrote file · (.ok ()))) = ts.map (file, ·) := by
  rw [written, List.filterMap_map, ← List.filterMap_eq_map']
  rfl

/-- What could not be written, and where. -/
def Deed.refused? : Deed → Option (Path × Text)
  | .wrote file t (.error _) => some (file, t)
  | _ => none

/-- Everything that could not be written, in order. -/
def refusals (deeds : List Deed) : List (Path × Text) := deeds.filterMap Deed.refused?

theorem refusals_append (a b : List Deed) : refusals (a ++ b) = refusals a ++ refusals b := List.filterMap_append

theorem written_of_inquiries {file : Path} {deeds : List Deed} (h : ∀ x ∈ deeds, x.Inquiry file) :
    written deeds = [] := by
  rw [written, List.filterMap_eq_nil_iff]
  intro x hx
  cases x with
  | asked q answer => rfl
  | announced file => rfl
  | wrote f t result => exact absurd (h _ hx) id

/-! ## Worlds -/

namespace World

variable {σ : Type} {w w₁ w₂ : World σ} {file : Path}

/-- Whether a file was announced before. -/
def Knows (w : World σ) (file : Path) : Prop := (w.announced.any fun known => known.same file) = true

/-- A world that comes of another by some deeds and announcements in the work
on a file. The tree changes by what was written, and by nothing else. -/
structure Grows (file : Path) (w w' : World σ) (deeds : List Deed) (files : List Path) : Prop where
  deeds_eq : w'.deeds = w.deeds ++ deeds
  announced_eq : w'.announced = files ++ w.announced
  writeAll : w.tree.writeAll file ((written deeds).map (·.2)) = .ok w'.tree

namespace Grows

theorem refl (file : Path) (w : World σ) : w.Grows file w [] [] := ⟨by simp, rfl, rfl⟩

/-- A step that writes nothing. -/
theorem of_tree_eq {deeds : List Deed} {files : List Path} (hdeeds : w₁.deeds = w.deeds ++ deeds)
    (hannounced : w₁.announced = files ++ w.announced) (htree : w₁.tree = w.tree) (hnone : written deeds = []) :
    w.Grows file w₁ deeds files :=
  ⟨hdeeds, hannounced, by rw [hnone, htree]; rfl⟩

theorem trans {deeds₁ deeds₂ : List Deed} {files₁ files₂ : List Path} (h₁ : w.Grows file w₁ deeds₁ files₁)
    (h₂ : w₁.Grows file w₂ deeds₂ files₂) : w.Grows file w₂ (deeds₁ ++ deeds₂) (files₂ ++ files₁) where
  deeds_eq := by rw [h₂.deeds_eq, h₁.deeds_eq, List.append_assoc]
  announced_eq := by rw [h₂.announced_eq, h₁.announced_eq, List.append_assoc]
  writeAll := by rw [written_append, List.map_append, FileTree.writeAll_append h₁.writeAll, h₂.writeAll]

theorem knows {deeds : List Deed} {files : List Path} (h : w.Grows file w₁ deeds files) {p : Path}
    (hp : w.Knows p) : w₁.Knows p := by
  rw [Knows, h.announced_eq, List.any_append]
  exact Bool.or_eq_true_iff.2 (.inr hp)

end Grows
end World

/-! ## Asking -/

namespace Work

variable {σ α β : Type} {w w₁ : World σ} {file : Path}

/-- Work that puts questions about the constructs of a file and does nothing
else that can be seen. -/
def Inquires (file : Path) (x : Work σ α) : Prop :=
  ∀ w : World σ, ∃ asked : List Deed,
    (∀ deed ∈ asked, deed.Inquiry file) ∧ w.Grows file (runIn w x).2 asked []

namespace Inquires

/-- A step without questions. -/
theorem of_grows {x : Work σ α} (h : ∀ w : World σ, w.Grows file (runIn w x).2 [] []) : Inquires file x :=
  fun w => ⟨[], by simp, h w⟩

theorem pure (a : α) : Inquires file (Pure.pure a : Work σ α) := .of_grows fun w => .refl file w

theorem note (events : List Event) : Inquires file (Work.note events : Work σ Unit) :=
  .of_grows fun w => .of_tree_eq (w := w) (by simp; rfl) rfl rfl rfl

theorem ask (p : Prompter σ) {q : Question} {c : Candidate} (hq : q.candidate? = some c) (hc : c.file = file) :
    Inquires file (Work.ask p q) := by
  intro w
  refine ⟨[.asked q (p.answer q w.prompt).1], ?_, .of_tree_eq rfl rfl rfl rfl⟩
  intro deed hdeed
  rw [List.mem_singleton.1 hdeed]
  exact ⟨c, hq, hc⟩

theorem bind_of_ok {x : Work σ α} {f : α → Work σ β} (hx : Inquires file x)
    (hf : ∀ w a w', runIn w x = (.ok a, w') → Inquires file (f a)) : Inquires file (x >>= f) := by
  intro w
  obtain ⟨asked, hasked, hgrows⟩ := hx w
  rcases h : runIn w x with ⟨e | a, w₁⟩
  · rw [runIn_bind_of_error h]
    rw [h] at hgrows
    exact ⟨asked, hasked, hgrows⟩
  · rw [runIn_bind_of_ok h]
    rw [h] at hgrows
    obtain ⟨asked', hasked', hgrows'⟩ := hf w a w₁ h w₁
    refine ⟨asked ++ asked', ?_, hgrows.trans hgrows'⟩
    intro deed hdeed
    exact (List.mem_append.1 hdeed).elim (hasked deed) (hasked' deed)

end Inquires
end Work

namespace Documenter

variable {σ : Type} {d : Documenter σ} {w : World σ} {file : Path}

/-- Describing the constructs of a file only puts questions about them. -/
theorem inStep_inquires (d : Documenter σ) (file : Path) (style : Style) :
    InStep (fun _ x _ => x.Inquires file) file style d d where
  steps := ⟨.pure, .note, .bind_of_ok⟩
  review := rfl
  ask := .ask d.prompter
  unrendered _ := .of_grows fun w => .refl file w

/-! ## Consent -/

/-- The first time a file comes up, it is announced and the user is asked; the
answer decides. Afterwards it is let through without a question. -/
theorem admits_cases (d : Documenter σ) (w : World σ) (file : Path) :
    w.Knows file ∧ Work.runIn w (d.admits file) = (.ok true, w) ∨
      ¬w.Knows file ∧ ∃ answer w', Work.runIn w (d.admits file) = (answer, w') ∧
        w.Grows file w' [.announced file, .asked (.confirm file) answer] [file] := by
  by_cases hknown : w.Knows file
  · exact .inl ⟨hknown, Work.runIn_bind_ok.2 ⟨false, w, if_pos hknown, rfl⟩⟩
  · refine .inr ⟨hknown, ?_⟩
    obtain ⟨w₁, hfirst, hgrows⟩ : ∃ w₁, Work.runIn w (Work.announce d.prompter file) = (.ok true, w₁) ∧
        w.Grows file w₁ [.announced file] [file] := ⟨_, if_neg hknown, .of_tree_eq rfl rfl rfl rfl⟩
    obtain ⟨answer, w₂, hasked, hgrows'⟩ :
        ∃ answer w₂, Work.runIn w₁ (Work.ask d.prompter (.confirm file)) = (answer, w₂) ∧
          w₁.Grows file w₂ [.asked (.confirm file) answer] [] := ⟨_, _, rfl, .of_tree_eq rfl rfl rfl rfl⟩
    have hboth := hgrows.trans hgrows'
    unfold admits
    rw [Work.runIn_bind_of_ok hfirst]
    match answer, hasked with
    | .error e, hasked =>
      rw [if_pos rfl, Work.runIn_bind_of_error hasked]
      exact ⟨_, _, rfl, hboth⟩
    | .ok true, hasked =>
      rw [if_pos rfl, Work.runIn_bind_of_ok hasked]
      exact ⟨_, _, rfl, hboth⟩
    | .ok false, hasked =>
      rw [if_pos rfl, Work.runIn_bind_of_ok hasked]
      exact ⟨_, _, rfl, ⟨hboth.deeds_eq, hboth.announced_eq, hboth.writeAll⟩⟩

end Documenter

/-! ## Filling -/

/-- A draft with what the candidates of a kind got; it stays as it is when they
got nothing. -/
def Draft.filled? (draft : Draft) (kind : Kind) (got : List Candidate) : Option Draft :=
  if (got.filterMap (·.block)).isEmpty then some draft else draft.withBlocks? kind got

theorem Draft.filled?_cases {draft draft' : Draft} {kind : Kind} {got : List Candidate}
    (h : draft.filled? kind got = some draft') :
    got.filterMap (·.block) = [] ∧ draft' = draft ∨
      got.filterMap (·.block) ≠ [] ∧ applyBlocks? draft.content (got.filterMap (·.block)) = some draft'.content ∧
        draft'.kinds = draft.kinds ++ [⟨kind, (got.filter (·.block.isSome)).map (·.name)⟩] := by
  unfold filled? at h
  split at h
  · next hnone => exact .inl ⟨List.isEmpty_iff.1 hnone, (Option.some.inj h).symm⟩
  · next hsome =>
    obtain ⟨history, -, h⟩ := Option.bind_eq_some_iff.1 h
    obtain ⟨content, happly, h⟩ := Option.map_eq_some_iff.1 h
    rw [← h]
    exact .inr ⟨by simpa using hsome, happly, rfl⟩

namespace Documenter

variable {σ : Type} {d : Documenter σ} {w : World σ} {file : Path} {change : Option FileChange}

/-- The texts that are written once the candidates of a kind got what they
got: the new text, unless nothing is to be written. -/
def contents (d : Documenter σ) (got : List Candidate) (t : Text) : List Text :=
  if d.dryRun || (got.filterMap (·.block)).isEmpty then [] else [t]

/-- How filling a kind of construct ends, and the world it leaves. Nothing is
written when it fails. -/
inductive Fills (d : Documenter σ) (file : Path) (k : KindPlan) (cs : List Candidate) (draft : Draft)
    (w : World σ) : Except Failure Draft × World σ → Prop
  | failed {e : Failure} {asked : List Deed} {w' : World σ} (hasked : ∀ x ∈ asked, x.Inquiry file)
      (hgrows : w.Grows file w' asked []) : Fills d file k cs draft w (.error e, w')
  /-- The new text could not be written. -/
  | refused {asked : List Deed} {t : Text} {fault : AccessFault} {w₁ w' : World σ}
      (hasked : ∀ x ∈ asked, x.Inquiry file) (hgrows : w.Grows file w₁ asked [])
      (hwrite : w₁.tree.write file t = .error fault)
      (hrefused : w₁.Grows file w' [.wrote file t (.error fault)] []) :
      Fills d file k cs draft w (.error (.fileAccess file.text fault), w')
  | filled {got : List Candidate} {asked : List Deed} {draft' : Draft} {w₁ w' : World σ}
      (hasked : ∀ x ∈ asked, x.Inquiry file) (hgot : Work.runIn w (d.writeBlocks k.style cs) = (.ok got, w₁))
      (hgrows : w.Grows file w₁ asked []) (hdraft : draft.filled? k.grammar.shape.kind got = some draft')
      (hwrites : w₁.Grows file w' ((d.contents got draft'.content).map (.wrote file · (.ok ()))) []) :
      Fills d file k cs draft w (.ok draft', w')

theorem fillKind_run (d : Documenter σ) (w : World σ) (k : KindPlan) {cs : List Candidate}
    (hcs : ∀ c ∈ cs, c.file = file) (draft : Draft) :
    d.Fills file k cs draft w (Work.runIn w (d.fillKind file k cs draft)) := by
  obtain ⟨asked, hasked, hgrows⟩ := (inStep_inquires d file k.style).writeBlocks hcs w
  unfold fillKind
  rcases hgot : Work.runIn w (d.writeBlocks k.style cs) with ⟨e | got, w₁⟩
  · rw [Work.runIn_bind_of_error hgot]
    rw [hgot] at hgrows
    exact .failed hasked hgrows
  rw [Work.runIn_bind_of_ok hgot]
  rw [hgot] at hgrows
  dsimp only at hgrows ⊢
  by_cases hnone : (got.filterMap (·.block)).isEmpty
  · rw [if_pos hnone]
    refine .filled hasked hgot hgrows (if_pos hnone) ?_
    rw [contents, hnone, Bool.or_true, if_pos rfl]
    exact .refl file w₁
  rw [if_neg hnone]
  cases hdraft : draft.withBlocks? k.grammar.shape.kind got with
  | none => exact .failed hasked hgrows
  | some draft' =>
    have hfilled : draft.filled? k.grammar.shape.kind got = some draft' := (if_neg hnone).trans hdraft
    cases hdry : d.dryRun with
    | true =>
      refine .filled hasked hgot hgrows hfilled ?_
      rw [contents, hdry, Bool.true_or, if_pos rfl]
      exact .refl file w₁
    | false =>
      simp only [Bool.false_eq_true, if_false]
      cases hwrite : w₁.tree.write file draft'.content with
      | error fault =>
        rw [Work.runIn_bind_of_error (Work.runIn_write_error hwrite)]
        exact .refused hasked hgrows hwrite (.of_tree_eq rfl rfl rfl rfl)
      | ok tree =>
        rw [Work.runIn_bind_of_ok (Work.runIn_write hwrite)]
        refine .filled hasked hgot hgrows hfilled ⟨?_, rfl, ?_⟩
        · rw [contents, hdry, Bool.false_or, if_neg hnone]
          rfl
        · rw [contents, hdry, Bool.false_or, if_neg hnone]
          simp only [List.map_cons, List.map_nil, written, List.filterMap_cons, Deed.written?,
            List.filterMap_nil, FileTree.writeAll, hwrite]

/-! ## One kind of construct -/

/-- How a file gets through: it was announced before, or the user agrees. -/
inductive Admitted (file : Path) (w w₁ : World σ) : Prop
  | before (hknown : w.Knows file) (hgrows : w.Grows file w₁ [] [])
  | now (hnew : ¬w.Knows file)
      (hgrows : w.Grows file w₁ [.announced file, .asked (.confirm file) (.ok true)] [file])

theorem Admitted.knows {w₁ : World σ} (h : Admitted file w w₁) : w₁.Knows file := by
  cases h with
  | before hknown hgrows => exact hgrows.knows hknown
  | now hnew hgrows =>
    rw [World.Knows, hgrows.announced_eq]
    simp [Path.same]

/-- How the work on one kind of construct ends, and the world it leaves. -/
inductive KindEnds (d : Documenter σ) (file : Path) (change : Option FileChange) (k : KindPlan) (draft : Draft)
    (w : World σ) : Except Failure (Option Draft) × World σ → Prop
  /-- There is nothing to document. -/
  | idle {w' : World σ} (hnone : found k file change draft = []) (hgrows : w.Grows file w' [] []) :
      KindEnds d file change k draft w (.ok (some draft), w')
  /-- The user was asked for consent and did not give it. -/
  | refused {answer : Except Failure Bool} {w' : World σ} (hnew : ¬w.Knows file) (hanswer : answer ≠ .ok true)
      (hgrows : w.Grows file w' [.announced file, .asked (.confirm file) answer] [file]) :
      KindEnds d file change k draft w (answer.map fun _ => none, w')
  | worked {w₁ w' : World σ} {ended : Except Failure Draft} (hadmitted : Admitted file w w₁)
      (hfills : d.Fills file k (found k file change draft) draft w₁ (ended, w')) :
      KindEnds d file change k draft w (ended.map some, w')

theorem documentKind_run (d : Documenter σ) (file : Path) (change : Option FileChange) (k : KindPlan)
    (draft : Draft) (w : World σ) :
    d.KindEnds file change k draft w (Work.runIn w (d.documentKind file change k draft)) := by
  obtain ⟨w₀, hnote, hsame⟩ : ∃ w₀,
      Work.runIn w (Work.note (scanWith k.grammar file draft.content change draft.history).2) = (.ok (), w₀) ∧
        w.Grows file w₀ [] [] := ⟨_, rfl, .of_tree_eq (List.append_nil _).symm rfl rfl rfl⟩
  unfold documentKind
  dsimp only
  rw [Work.runIn_bind_of_ok hnote]
  by_cases hnone : found k file change draft = []
  · rw [if_pos (by rwa [Session.isEmpty, List.isEmpty_iff])]
    exact .idle hnone hsame
  rw [if_neg (by rwa [Session.isEmpty, List.isEmpty_iff])]
  have hrun : ∀ {w₁ : World σ}, Work.runIn w₀ (d.admits file) = (.ok true, w₁) → Admitted file w w₁ →
      d.KindEnds file change k draft w (Work.runIn w₀ (do
        if ← d.admits file then some <$> d.fillKind file k (found k file change draft) draft else pure none)) := by
    intro w₁ hadmits hadmitted
    rw [Work.runIn_bind_of_ok hadmits, if_pos rfl, Work.runIn_map]
    exact .worked hadmitted (fillKind_run d w₁ k (fun c hc => file_of_mem_found hc) draft)
  rcases admits_cases d w₀ file with ⟨hknown, hadmits⟩ | ⟨hnew, answer, w₁, hadmits, hgrows⟩
  · refine hrun hadmits (.before ?_ hsame)
    rwa [World.Knows, hsame.announced_eq] at hknown
  · have hnew' : ¬w.Knows file := by rwa [World.Knows, hsame.announced_eq] at hnew
    have hgrows' := hsame.trans hgrows
    match answer, hadmits with
    | .ok true, hadmits => exact hrun hadmits (.now hnew' hgrows')
    | .ok false, hadmits =>
      rw [Work.runIn_bind_of_ok hadmits]
      have hno : (.ok false : Except Failure Bool) ≠ .ok true := by simp
      exact .refused hnew' hno hgrows'
    | .error e, hadmits =>
      rw [Work.runIn_bind_of_error hadmits]
      have hno : (.error e : Except Failure Bool) ≠ .ok true := by simp
      exact .refused hnew' hno hgrows'

end Documenter
end DocScribe
