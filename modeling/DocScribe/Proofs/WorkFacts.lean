/-
What steps of work come to.

`Work.runIn` is how work ends that starts in a given world. Each step has one
equation, and `Work.runIn_bind_ok` takes work that succeeded apart into its
steps.
-/
import DocScribe.Document.Basic

namespace DocScribe
namespace Work

variable {σ α β : Type}

/-- How work ends that starts in a world, and the world it leaves. -/
def runIn (w : World σ) (x : Work σ α) : Except Failure α × World σ := x.run.run w

variable {w w' : World σ}

@[simp] theorem runIn_pure (a : α) : runIn w (pure a) = (.ok a, w) := rfl

theorem runIn_bind (x : Work σ α) (f : α → Work σ β) :
    runIn w (x >>= f) =
      match runIn w x with
      | (.ok a, w') => runIn w' (f a)
      | (.error e, w') => (.error e, w') := by
  rcases h : runIn w x with ⟨e | a, s⟩ <;>
    · simp only [runIn] at h
      simp only [runIn, ExceptT.run_bind, StateT.run_bind, h]
      rfl

theorem runIn_bind_of_ok {x : Work σ α} {f : α → Work σ β} {a : α} (h : runIn w x = (.ok a, w')) :
    runIn w (x >>= f) = runIn w' (f a) := by
  rw [runIn_bind, h]

theorem runIn_bind_of_error {x : Work σ α} {f : α → Work σ β} {e : Failure} (h : runIn w x = (.error e, w')) :
    runIn w (x >>= f) = (.error e, w') := by
  rw [runIn_bind, h]

/-- Work in two steps succeeds when both do. -/
theorem runIn_bind_ok {x : Work σ α} {f : α → Work σ β} {b : β} :
    runIn w (x >>= f) = (.ok b, w') ↔
      ∃ a w₁, runIn w x = (.ok a, w₁) ∧ runIn w₁ (f a) = (.ok b, w') := by
  rw [runIn_bind]
  rcases runIn w x with ⟨e | a, s⟩
  · simp
  · simp only [Prod.mk.injEq, Except.ok.injEq]
    constructor
    · exact fun h => ⟨a, s, ⟨rfl, rfl⟩, h⟩
    · rintro ⟨_, _, ⟨rfl, rfl⟩, h⟩
      exact h

theorem runIn_map (f : α → β) (x : Work σ α) :
    runIn w (f <$> x) = ((runIn w x).1.map f, (runIn w x).2) := by
  rw [map_eq_pure_bind]
  rcases h : runIn w x with ⟨e | a, w₁⟩
  · rw [runIn_bind_of_error h]
    rfl
  · rw [runIn_bind_of_ok h]
    rfl

theorem runIn_map_ok {x : Work σ α} {f : α → β} {b : β} :
    runIn w (f <$> x) = (.ok b, w') ↔ ∃ a, runIn w x = (.ok a, w') ∧ f a = b := by
  rw [map_eq_pure_bind, runIn_bind_ok]
  simp only [runIn_pure, Prod.mk.injEq, Except.ok.injEq]
  constructor
  · rintro ⟨a, w₁, h, rfl, rfl⟩
    exact ⟨a, h, rfl⟩
  · rintro ⟨a, h, rfl⟩
    exact ⟨a, w', h, rfl, rfl⟩

theorem runIn_read {file : Path} {t : Text} (h : w.tree.read file = .ok t) :
    runIn w (read file) = (.ok t, w) := by
  refine runIn_bind_ok.2 ⟨w, w, rfl, ?_⟩
  rw [h]
  rfl

theorem runIn_read_error {file : Path} {fault : AccessFault} (h : w.tree.read file = .error fault) :
    runIn w (read file) = (.error (.fileAccess file.text fault), w) := by
  have hget : runIn w (get : Work σ (World σ)) = (.ok w, w) := rfl
  rw [read, runIn_bind_of_ok hget, h]
  rfl

/-- Work whose failure is looked at goes on. -/
theorem runIn_run (x : Work σ α) :
    runIn w (liftM x.run : Work σ (Except Failure α)) = (.ok (runIn w x).1, (runIn w x).2) := rfl

theorem runIn_write {file : Path} {t : Text} {tree : FileTree} (h : w.tree.write file t = .ok tree) :
    runIn w (write file t) = (.ok (), { w with
      tree := tree, deeds := w.deeds ++ [.wrote file t (.ok ())], events := w.events ++ [.wrote file t.size] }) := by
  refine runIn_bind_ok.2 ⟨w, w, rfl, ?_⟩
  rw [h]
  rfl

theorem runIn_write_error {file : Path} {t : Text} {fault : AccessFault}
    (h : w.tree.write file t = .error fault) :
    runIn w (write file t) = (.error (.fileAccess file.text fault), { w with
      deeds := w.deeds ++ [.wrote file t (.error fault)] }) := by
  have hget : runIn w (get : Work σ (World σ)) = (.ok w, w) := rfl
  rw [write, runIn_bind_of_ok hget, h]
  rfl

end Work
end DocScribe
