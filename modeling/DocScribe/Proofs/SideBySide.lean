/-
Two runs side by side.

`Work.Alike R Off x y` says that two pieces of work which begin in worlds that
`R` relates end with the same result, in worlds that `R` relates, unless the
first one fails and leaves a world that is off. Documenters that put questions
alike, ask for consent alike and save alike (`Documenter.Companions`) work on a
file alike when both read the same text (`Documenter.alike_documentFile`), alone
or in a run (`Documenter.alike_outcomeOf`).
-/
import DocScribe.Proofs.Deeds

namespace DocScribe

/-! ## Work -/

namespace Work

variable {σ α β : Type} {R : World σ → World σ → Prop} {Off : World σ → Prop}

/-- Two pieces of work that come to the same in worlds that are alike, and
leave worlds that are alike, unless the first one fails and leaves a world that
is off. -/
def Alike (R : World σ → World σ → Prop) (Off : World σ → Prop) (x y : Work σ α) : Prop :=
  ∀ v w, R v w →
    (∃ e v', runIn v x = (.error e, v') ∧ Off v') ∨
      ((runIn v x).1 = (runIn w y).1 ∧ R (runIn v x).2 (runIn w y).2)

/-- The events that are noted down make no difference. -/
structure Unheard (R : World σ → World σ → Prop) (Off : World σ → Prop) : Prop where
  alike : ∀ events {v w}, R v w → R (runIn v (note events)).2 (runIn w (note events)).2
  off : ∀ events {v}, Off v → Off (runIn v (note events)).2

namespace Alike

theorem pure (a : α) : Alike R Off (Pure.pure a) (Pure.pure a) := fun _ _ h => .inr ⟨rfl, h⟩

theorem throw (e : Failure) : Alike R Off (MonadExcept.throw e : Work σ α) (MonadExcept.throw e) :=
  fun _ _ h => .inr ⟨rfl, h⟩

theorem note (hunheard : Unheard R Off) (events : List Event) :
    Alike R Off (Work.note events) (Work.note events) :=
  fun _ _ h => .inr ⟨rfl, hunheard.alike events h⟩

/-- Work that has failed is not gone on with, so a world that is off is the
last one. -/
theorem bind_of_ok {x y : Work σ α} {f g : α → Work σ β} (hx : Alike R Off x y)
    (hf : ∀ v a v', runIn v x = (.ok a, v') → Alike R Off (f a) (g a)) : Alike R Off (x >>= f) (y >>= g) := by
  intro v w h
  rcases hx v w h with ⟨e, v', hv, hoff⟩ | ⟨hresult, hafter⟩
  · exact .inl ⟨e, v', runIn_bind_of_error hv, hoff⟩
  rcases hv : runIn v x with ⟨e | a, v₁⟩ <;> rcases hw : runIn w y with ⟨e' | a', w₁⟩ <;>
    rw [hv, hw] at hresult hafter
  · cases hresult
    rw [runIn_bind_of_error hv, runIn_bind_of_error hw]
    exact .inr ⟨rfl, hafter⟩
  · cases hresult
  · cases hresult
  · cases hresult
    rw [runIn_bind_of_ok hv, runIn_bind_of_ok hw]
    exact hf v a v₁ hv v₁ w₁ hafter

end Alike

theorem Unheard.stepwise (hunheard : Unheard R Off) : Stepwise fun _ (x y : Work σ _) => Alike R Off x y :=
  ⟨.pure, .note hunheard, .bind_of_ok⟩

end Work

/-! ## A file -/

namespace Documenter

variable {σ : Type} {R : World σ → World σ → Prop} {Off : World σ → Prop} {file : Path} {d e : Documenter σ}

/-- Documenters that go about a file alike. -/
structure Companions (R : World σ → World σ → Prop) (Off : World σ → Prop) (file : Path) (d e : Documenter σ) :
    Prop where
  review : d.review = e.review
  unheard : Work.Unheard R Off
  ask : ∀ q, Work.Alike R Off (Work.ask d.prompter q) (Work.ask e.prompter q)
  admits : Work.Alike R Off (d.admits file) (e.admits file)
  save : ∀ t, Work.Alike R Off (d.save file t) (e.save file t)

theorem Companions.documentKinds (h : Companions R Off file d e) (change : Option FileChange) (kinds : List KindPlan)
    (draft : Draft) :
    Work.Alike R Off (d.documentKinds file change kinds draft) (e.documentKinds file change kinds draft) := by
  have hstep (style : Style) : InStep (fun _ x y => Work.Alike R Off x y) file style d e :=
    ⟨h.unheard.stepwise, h.review, fun _ _ => h.ask _, fun _ => .throw _⟩
  refine h.unheard.stepwise.documentKinds h.admits (fun k _ draft => ?_) draft
  exact (hstep k.style).fillKind (fun c hc => file_of_mem_found hc) (fun _ _ _ _ _ => .throw _) h.save

/-- Both read the same text, or both fail to read the file. -/
theorem alike_documentFile (hcatalog : d.catalog = e.catalog) {v w : World σ} (hvw : R v w)
    (hread : v.tree.read file = w.tree.read file) (h : ∀ t, v.tree.read file = .ok t → Companions R Off file d e)
    (change : Option FileChange) :
    (∃ e v', Work.runIn v (d.documentFile file change) = (.error e, v') ∧ Off v') ∨
      ((Work.runIn v (d.documentFile file change)).1 = (Work.runIn w (e.documentFile file change)).1 ∧
        R (Work.runIn v (d.documentFile file change)).2 (Work.runIn w (e.documentFile file change)).2) := by
  unfold documentFile
  rw [hcatalog]
  cases e.catalog.planFor file with
  | error fault => exact .inr ⟨rfl, hvw⟩
  | ok plan =>
    dsimp only
    cases hv : v.tree.read file with
    | error fault =>
      have hw := hread.symm.trans hv
      rw [Work.runIn_bind_of_error (Work.runIn_read_error hv), Work.runIn_bind_of_error (Work.runIn_read_error hw)]
      exact .inr ⟨rfl, hvw⟩
    | ok t =>
      have hw := hread.symm.trans hv
      rw [Work.runIn_bind_of_ok (Work.runIn_read hv), Work.runIn_bind_of_ok (Work.runIn_read hw)]
      exact ((h t hv).documentKinds change plan.kinds { content := t }).bind_of_ok (fun _ _ _ _ => .pure _) v w hvw

/-- Looking a file up in a change set leaves worlds that are alike, and the
files as they are. -/
theorem alike_changeFor (hunheard : Work.Unheard R Off) {v w : World σ} (hvw : R v w) (file : Path)
    (changes : Option ChangeSet) :
    ∃ v₁ w₁, Work.runIn v (changeFor file changes) = (.ok (changes.bind (·.find? file)), v₁) ∧
      Work.runIn w (changeFor file changes) = (.ok (changes.bind (·.find? file)), w₁) ∧
      R v₁ w₁ ∧ v₁.tree = v.tree ∧ w₁.tree = w.tree := by
  cases changes with
  | none => exact ⟨v, w, rfl, rfl, hvw, rfl, rfl⟩
  | some set =>
    simp only [changeFor, Option.bind_some]
    split
    · exact ⟨_, _, rfl, rfl, hunheard.alike [.noPatch file] hvw, rfl, rfl⟩
    · exact ⟨v, w, rfl, rfl, hvw, rfl, rfl⟩

/-- What comes of a file in a run. A run goes on after a failure, so the first
world can be off whatever came of the file. -/
theorem alike_outcomeOf (hcatalog : d.catalog = e.catalog) (hunheard : Work.Unheard R Off) {v w : World σ}
    (hvw : R v w) (hread : v.tree.read file = w.tree.read file)
    (h : ∀ t, v.tree.read file = .ok t → Companions R Off file d e) (changes : Option ChangeSet) :
    Off (Work.runIn v (d.outcomeOf changes file)).2 ∨
      ((Work.runIn v (d.outcomeOf changes file)).1 = (Work.runIn w (e.outcomeOf changes file)).1 ∧
        R (Work.runIn v (d.outcomeOf changes file)).2 (Work.runIn w (e.outcomeOf changes file)).2) := by
  obtain ⟨v₁, w₁, hv, hw, hvw₁, htv, htw⟩ := alike_changeFor hunheard hvw file changes
  have hread₁ : v₁.tree.read file = w₁.tree.read file := by rw [htv, htw, hread]
  have hfile := alike_documentFile hcatalog hvw₁ hread₁ (by rwa [htv]) (changes.bind (·.find? file))
  unfold outcomeOf
  rw [Work.runIn_bind_of_ok hv, Work.runIn_bind_of_ok hw, Work.runIn_bind_of_ok (Work.runIn_run _),
    Work.runIn_bind_of_ok (Work.runIn_run _)]
  generalize Work.runIn v₁ (d.documentFile file (changes.bind (·.find? file))) = out at hfile ⊢
  generalize Work.runIn w₁ (e.documentFile file (changes.bind (·.find? file))) = out' at hfile ⊢
  obtain ⟨ended, v₂⟩ := out
  obtain ⟨ended', w₂⟩ := out'
  rcases hfile with ⟨failure, v', hfailed, hoff⟩ | ⟨rfl, hafter⟩
  · cases hfailed
    cases failure with
    | cancelled => exact .inl hoff
    | _ => exact .inl (hunheard.off [.fileFailed file] hoff)
  match ended with
  | .ok (some report) => exact .inr ⟨rfl, hafter⟩
  | .ok none => exact .inr ⟨rfl, hafter⟩
  | .error e =>
    cases e with
    | cancelled => exact .inr ⟨rfl, hafter⟩
    | _ => exact .inr ⟨rfl, hunheard.alike [.fileFailed file] hafter⟩

end Documenter
end DocScribe
