/-
Rules for the steps of documenting.

A relation of two pieces of work that survives steps in a row (`Work.Stepwise`)
holds of what two documenters do about a file as soon as it holds of the
questions they put (`Documenter.InStep`). Each function of a documenter has one
rule, and follows the recursion of that function. What is said of one documenter
alone is a relation that looks at its first side only.
-/
import DocScribe.Proofs.Signatures
import DocScribe.Proofs.WorkFacts

namespace DocScribe

/-! ## Questions -/

/-- The file that a question is about. -/
def Question.file : Question → Path
  | .docstring c | .argumentDoc c _ | .argumentType c _ | .review c _ => c.file
  | .confirm file => file

/-- The construct that a question is about; a confirmation is about a whole
file. -/
def Question.candidate? : Question → Option Candidate
  | .docstring c | .argumentDoc c _ | .argumentType c _ | .review c _ => some c
  | .confirm _ => none

theorem Question.file_eq {q : Question} {c : Candidate} (h : q.candidate? = some c) : q.file = c.file := by
  cases q with
  | confirm file => cases h
  | _ => exact congrArg Candidate.file (Option.some.inj h)

/-! ## Relations that steps keep -/

namespace Work

variable {σ α β : Type}

/-- A relation of two pieces of work that is kept by steps in a row. What comes
after a step is only looked at for the values that the first side can get. -/
structure Stepwise (R : ∀ α : Type, Work σ α → Work σ α → Prop) : Prop where
  pure : ∀ {α : Type} (a : α), R α (Pure.pure a) (Pure.pure a)
  note : ∀ events, R Unit (Work.note events) (Work.note events)
  bind_of_ok : ∀ {α β : Type} {x y : Work σ α} {f g : α → Work σ β}, R α x y →
    (∀ w a w', runIn w x = (.ok a, w') → R β (f a) (g a)) → R β (x >>= f) (y >>= g)

namespace Stepwise

variable {R : ∀ α : Type, Work σ α → Work σ α → Prop} (h : Stepwise R)

include h

theorem bind {x y : Work σ α} {f g : α → Work σ β} (hx : R α x y) (hf : ∀ a, R β (f a) (g a)) :
    R β (x >>= f) (y >>= g) := h.bind_of_ok hx fun _ a _ _ => hf a

theorem map {x y : Work σ α} (f : α → β) (hx : R α x y) : R β (f <$> x) (f <$> y) := by
  rw [map_eq_pure_bind, map_eq_pure_bind]
  exact h.bind hx fun a => h.pure (f a)

end Stepwise
end Work

/-! ## The constructs of a kind -/

namespace Documenter

variable {σ : Type} {R : ∀ α : Type, Work σ α → Work σ α → Prop} {d e : Documenter σ} {file : Path}
  {change : Option FileChange} {style : Style} {c : Candidate} {k : KindPlan}

/-- The candidates that a kind of construct has in a draft. -/
def found (k : KindPlan) (file : Path) (change : Option FileChange) (draft : Draft) : List Candidate :=
  (scanWith k.grammar file draft.content change draft.history).1.candidates

theorem file_of_mem_found {draft : Draft} (hc : c ∈ found k file change draft) : c.file = file := by
  obtain ⟨m, s, -, -, -, -, -, rfl⟩ := mem_candidates hc
  rfl

/-- Writes the new text of a file, unless nothing is to be written. -/
def save (d : Documenter σ) (file : Path) (t : Text) : Work σ Unit :=
  if d.dryRun then pure () else Work.write file t

theorem fillKind_eq (d : Documenter σ) (file : Path) (k : KindPlan) (cs : List Candidate) (draft : Draft) :
    d.fillKind file k cs draft = (do
      let got ← d.writeBlocks k.style cs
      if (got.filterMap (·.block)).isEmpty then pure draft
      else
        match draft.withBlocks? k.grammar.shape.kind got with
        | none => throw .offset
        | some next => do
          d.save file next.content
          pure next) := by
  unfold fillKind save
  cases d.dryRun <;> rfl

/-- Documenters whose steps are related when they ask about the constructs of a
file, and when a template cannot be filled in. -/
structure InStep (R : ∀ α : Type, Work σ α → Work σ α → Prop) (file : Path) (style : Style) (d e : Documenter σ) :
    Prop where
  steps : Work.Stepwise R
  review : d.review = e.review
  ask : ∀ {q : Question} {c : Candidate}, q.candidate? = some c → c.file = file →
    R q.Answer (Work.ask d.prompter q) (Work.ask e.prompter q)
  unrendered : ∀ {c : Candidate} {text : DocText} {failure : Failure}, style.render c text = .error failure →
    R (Option Block) (throw failure) (throw failure)

namespace InStep

section construct
variable (h : InStep R file style d e)

include h

theorem describeArguments (hc : c.file = file) (addType : Bool) (names : List Text) :
    R (List ArgumentText) (d.describeArguments c addType names) (e.describeArguments c addType names) := by
  induction names with
  | nil => exact h.steps.pure _
  | cons name names ih =>
    have hdoc := h.ask (q := .argumentDoc c name) rfl hc
    have htype := h.ask (q := .argumentType c name) rfl hc
    have hrest (type : Option Text) := h.steps.bind hdoc fun doc =>
      h.steps.bind ih fun others => h.steps.pure (ArgumentText.mk name type doc :: others)
    unfold Documenter.describeArguments
    dsimp only
    split
    · exact h.steps.bind (h.steps.map some htype) hrest
    · exact h.steps.bind (h.steps.pure none) hrest

theorem reviewed? (hc : c.file = file) (b : Block) : R (Option Block) (d.reviewed? c b) (e.reviewed? c b) := by
  unfold Documenter.reviewed?
  rw [h.review]
  split
  · refine h.steps.bind (h.ask rfl hc) fun answer => ?_
    dsimp only
    split
    · exact h.steps.bind (h.steps.note _) fun _ => h.steps.pure _
    · exact h.steps.pure _
  · exact h.steps.pure _

theorem blockFor (hc : c.file = file) : R (Option Block) (d.blockFor style c) (e.blockFor style c) := by
  have hdescribe : R DocText (d.describe c style.arguments.addType) (e.describe c style.arguments.addType) :=
    h.steps.bind (h.ask rfl hc) fun _ => h.steps.bind (h.describeArguments hc _ _) fun _ => h.steps.pure _
  refine h.steps.bind hdescribe fun text => ?_
  split
  · exact h.reviewed? hc _
  · next failure hrender => exact h.unrendered hrender

theorem writeBlocks {cs : List Candidate} (hcs : ∀ c ∈ cs, c.file = file) :
    R (List Candidate) (d.writeBlocks style cs) (e.writeBlocks style cs) := by
  induction cs with
  | nil => exact h.steps.pure _
  | cons c cs ih =>
    obtain ⟨hc, hcs⟩ := List.forall_mem_cons.1 hcs
    exact h.steps.bind (h.blockFor hc) fun _ => h.steps.bind (ih hcs) fun _ => h.steps.pure _

end construct

/-- What is left to say is what happens when the blocks have no place, and when
the text is saved. -/
theorem fillKind (h : InStep R file k.style d e) {cs : List Candidate} (hcs : ∀ c ∈ cs, c.file = file) {draft : Draft}
    (hoffset : ∀ w got w', Work.runIn w (d.writeBlocks k.style cs) = (.ok got, w') →
      draft.withBlocks? k.grammar.shape.kind got = none → R Draft (throw .offset) (throw .offset))
    (hsave : ∀ t, R Unit (d.save file t) (e.save file t)) :
    R Draft (d.fillKind file k cs draft) (e.fillKind file k cs draft) := by
  rw [fillKind_eq, fillKind_eq]
  refine h.steps.bind_of_ok (h.writeBlocks hcs) fun w got w' hgot => ?_
  split
  · exact h.steps.pure _
  · split
    · next hnone => exact hoffset w got w' hgot hnone
    · exact h.steps.bind (hsave _) fun _ => h.steps.pure _

end InStep
end Documenter

/-! ## The kinds of a file -/

namespace Work.Stepwise

variable {σ : Type} {R : ∀ α : Type, Work σ α → Work σ α → Prop} {d e : Documenter σ} {file : Path}
  {change : Option FileChange} (h : Stepwise R)

include h

theorem save (hdry : d.dryRun = e.dryRun) {t : Text}
    (hwrite : e.dryRun = false → R Unit (write file t) (write file t)) : R Unit (d.save file t) (e.save file t) := by
  unfold Documenter.save
  rw [hdry]
  split
  · exact h.pure _
  · next hwrites => exact hwrite (by simpa using hwrites)

theorem admits (hannounce : R Bool (announce d.prompter file) (announce e.prompter file))
    (hconfirm : R Bool (ask d.prompter (.confirm file)) (ask e.prompter (.confirm file))) :
    R Bool (d.admits file) (e.admits file) := by
  refine h.bind hannounce fun new => ?_
  split
  · refine h.bind hconfirm fun wanted => ?_
    dsimp only
    split
    · exact h.pure _
    · exact h.bind (h.note _) fun _ => h.pure _
  · exact h.pure _

theorem documentKind {k : KindPlan} {draft : Draft} (hadmits : R Bool (d.admits file) (e.admits file))
    (hfill : R Draft (d.fillKind file k (Documenter.found k file change draft) draft)
      (e.fillKind file k (Documenter.found k file change draft) draft)) :
    R (Option Draft) (d.documentKind file change k draft) (e.documentKind file change k draft) := by
  refine h.bind (h.note _) fun _ => ?_
  split
  · exact h.pure _
  · refine h.bind hadmits fun wanted => ?_
    split
    · exact h.map _ hfill
    · exact h.pure _

theorem documentKinds {kinds : List KindPlan} (hadmits : R Bool (d.admits file) (e.admits file))
    (hfill : ∀ k ∈ kinds, ∀ draft, R Draft (d.fillKind file k (Documenter.found k file change draft) draft)
      (e.fillKind file k (Documenter.found k file change draft) draft)) (draft : Draft) :
    R (Option Draft) (d.documentKinds file change kinds draft) (e.documentKinds file change kinds draft) := by
  induction kinds generalizing draft with
  | nil => exact h.pure _
  | cons k kinds ih =>
    obtain ⟨hk, hfill⟩ := List.forall_mem_cons.1 hfill
    refine h.bind (h.documentKind hadmits (hk draft)) fun next => ?_
    split
    · exact ih hfill _
    · exact h.pure _

theorem documentFile (hcatalog : d.catalog = e.catalog)
    (hunknown : ∀ failure, e.catalog.planFor file = .error failure →
      R (Option FileReport) (throw failure) (throw failure))
    (hread : R Text (read file) (read file))
    (hkinds : ∀ plan, e.catalog.planFor file = .ok plan → ∀ draft,
      R (Option Draft) (d.documentKinds file change plan.kinds draft) (e.documentKinds file change plan.kinds draft)) :
    R (Option FileReport) (d.documentFile file change) (e.documentFile file change) := by
  unfold Documenter.documentFile
  rw [hcatalog]
  split
  · next failure hfailure => exact hunknown failure hfailure
  · next plan hplan => exact h.bind hread fun _ => h.bind (hkinds plan hplan _) fun _ => h.pure _

end Work.Stepwise
end DocScribe
