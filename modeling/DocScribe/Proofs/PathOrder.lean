/-
The order of paths, and lists of paths in that order.

Paths are ordered as the lists of numbers that their components stand for
(`Path.le_iff`), so sorting and taking repeats once gives a list in which every
path comes strictly before those behind it (`Discovery.ordered_pairwise`). Such a
list is told by its members (`Discovery.ordered_congr`).
-/
import DocScribe.Discovery.Basic
import DocScribe.Proofs.PathFacts
import DocScribe.Proofs.Weave
import Mathlib.Data.List.Lex
import Mathlib.Data.List.Sort

namespace DocScribe

/-! ## Ranks -/

/-- A text as the numbers of its characters. -/
def Text.codes (t : Text) : List Nat := t.map fun c => c.val.toNat

theorem Text.codes_injective : Function.Injective Text.codes := by
  refine List.map_injective_iff.2 fun a b h => ?_
  exact Char.ext (UInt32.toNat.inj h)

theorem Text.lt_iff {a b : Text} : Text.lt a b = true ↔ a.codes < b.codes := by
  induction a generalizing b with
  | nil => cases b <;> simp [Text.lt, Text.codes]
  | cons c a ih =>
    cases b with
    | nil => simp [Text.lt, Text.codes]
    | cons d b =>
      have hcodes (c : Char) (t : Text) : Text.codes (c :: t) = c.val.toNat :: t.codes := rfl
      rw [Text.lt, hcodes, hcodes, List.cons_lt_cons_iff]
      split
      · next h =>
        subst h
        simp [ih]
      · next h =>
        have hne : c.val.toNat ≠ d.val.toNat := fun heq => h (Char.ext (UInt32.toNat.inj heq))
        rw [decide_eq_true_iff, UInt32.lt_iff_toNat_lt, or_iff_left fun h => hne h.1]

/-- A component as a list of numbers that stands where it does in the order. -/
def Component.rank : Component → List Nat
  | .root => [0]
  | .current => [1]
  | .parent => [2]
  | .name t => 3 :: t.codes

theorem Component.rank_injective : Function.Injective Component.rank := by
  intro c d h
  cases c <;> cases d <;> simp [Component.rank] at h ⊢
  exact Text.codes_injective h

theorem Component.lt_iff {c d : Component} : c.lt d = true ↔ c.rank < d.rank := by
  cases c <;> cases d <;> simp [Component.lt, Component.rank, Text.lt_iff, List.cons_lt_cons_iff, -not_lt]

namespace Path

/-- A path as what its components stand for in the order. -/
def rank (p : Path) : List (List Nat) := p.components.map Component.rank

theorem rank_eq_iff {p q : Path} : p.rank = q.rank ↔ p.components = q.components :=
  (List.map_injective_iff.2 Component.rank_injective).eq_iff

theorem leComponents_iff {a b : List Component} :
    leComponents a b = true ↔ ¬ b.map Component.rank < a.map Component.rank := by
  induction a generalizing b with
  | nil => simp [leComponents, -not_lt]
  | cons c a ih =>
    cases b with
    | nil => simp [leComponents, -not_lt]
    | cons d b =>
      rw [leComponents, List.map_cons, List.map_cons, List.cons_lt_cons_iff]
      split
      · next h =>
        subst h
        simp [ih, -not_lt]
      · next h =>
        have hne : d.rank ≠ c.rank := fun heq => h (Component.rank_injective heq.symm)
        rw [Component.lt_iff, or_iff_left fun h => hne h.1, not_lt]
        exact (le_iff_lt_or_eq.trans (or_iff_left hne.symm)).symm

/-- **Paths are ordered as their ranks are.** -/
theorem le_iff {p q : Path} : p.le q = true ↔ p.rank ≤ q.rank := leComponents_iff.trans not_lt

end Path

/-! ## Lists of paths -/

namespace Discovery

theorem sorted_pairwise_rank (paths : List Path) : (sorted Path.le paths).Pairwise fun p q => p.rank ≤ q.rank := by
  have htrans (p q r : Path) (hpq : p.rank ≤ q.rank) (hqr : q.rank ≤ r.rank) : p.rank ≤ r.rank := hpq.trans hqr
  refine sorted_pairwise htrans (List.pairwise_of_forall fun p q => ?_)
  split
  · next h => exact Path.le_iff.1 h
  · next h => exact le_of_not_ge fun hle => h (Path.le_iff.2 hle)

theorem dropRepeats_sublist (paths : List Path) : (dropRepeats paths).Sublist paths := by
  induction paths with
  | nil => exact .refl _
  | cons p rest ih =>
    rw [dropRepeats]
    split
    · exact (List.nil_sublist rest).cons_cons p
    · next q kept hkept =>
      rw [hkept] at ih
      split
      · exact ((List.sublist_cons_self q kept).trans ih).cons_cons p
      · exact ih.cons_cons p

/-- Of paths that are the same, one is kept. -/
theorem exists_same_of_mem {p : Path} {paths : List Path} (h : p ∈ paths) :
    ∃ q ∈ dropRepeats paths, q.components = p.components := by
  induction paths with
  | nil => cases h
  | cons first rest ih =>
    rw [dropRepeats]
    rcases List.mem_cons.1 h with rfl | h
    · split
      · exact ⟨p, List.mem_cons_self, rfl⟩
      · split <;> exact ⟨p, List.mem_cons_self, rfl⟩
    · obtain ⟨q, hq, hsame⟩ := ih h
      split
      · next hnone =>
        rw [hnone] at hq
        cases hq
      · next q' kept hkept =>
        rw [hkept] at hq
        split
        · next hrepeat =>
          rcases List.mem_cons.1 hq with rfl | hq
          · exact ⟨first, List.mem_cons_self, (Path.same_iff.1 hrepeat).trans hsame⟩
          · exact ⟨q, List.mem_cons_of_mem _ hq, hsame⟩
        · exact ⟨q, List.mem_cons_of_mem _ hq, hsame⟩

theorem dropRepeats_pairwise {paths : List Path} (h : paths.Pairwise fun p q => p.rank ≤ q.rank) :
    (dropRepeats paths).Pairwise fun p q => p.rank < q.rank := by
  induction paths with
  | nil => exact .nil
  | cons p rest ih =>
    obtain ⟨hp, hrest⟩ := List.pairwise_cons.1 h
    have hstrict := ih hrest
    rw [dropRepeats]
    split
    · exact List.pairwise_singleton _ _
    next q kept hkept =>
    have hq : q ∈ rest := (dropRepeats_sublist rest).subset (hkept ▸ List.mem_cons_self)
    rw [hkept] at hstrict
    obtain ⟨hqkept, hkept⟩ := List.pairwise_cons.1 hstrict
    split
    · next hsame =>
      have hrank : p.rank = q.rank := Path.rank_eq_iff.2 (Path.same_iff.1 hsame)
      exact List.pairwise_cons.2 ⟨fun r hr => hrank ▸ hqkept r hr, hkept⟩
    · next hsame =>
      have hlt : p.rank < q.rank :=
        lt_of_le_of_ne (hp q hq) fun hrank => hsame (Path.same_iff.2 (Path.rank_eq_iff.1 hrank))
      refine List.pairwise_cons.2 ⟨List.forall_mem_cons.2 ⟨hlt, fun r hr => ?_⟩, hstrict⟩
      exact hlt.trans (hqkept r hr)

/-- Paths in their order, each taken once. -/
def ordered (paths : List Path) : List Path := dropRepeats (sorted Path.le paths)

/-- **Every path comes strictly before those behind it.** -/
theorem ordered_pairwise (paths : List Path) : (ordered paths).Pairwise fun p q => p.rank < q.rank :=
  dropRepeats_pairwise (sorted_pairwise_rank paths)

theorem mem_ordered {paths : List Path}
    (htold : ∀ p ∈ paths, ∀ q ∈ paths, p.components = q.components → p = q) {p : Path} :
    p ∈ ordered paths ↔ p ∈ paths := by
  have hsub {q : Path} (hq : q ∈ ordered paths) : q ∈ paths :=
    (sorted_perm Path.le paths).subset ((dropRepeats_sublist _).subset hq)
  refine ⟨hsub, fun hp => ?_⟩
  obtain ⟨q, hq, hsame⟩ := exists_same_of_mem ((sorted_perm Path.le paths).mem_iff.2 hp)
  rwa [← htold q (hsub hq) p hp hsame]

/-- **An ordered list is told by its members.** -/
theorem ordered_congr {paths paths' : List Path} (h : ∀ p, p ∈ ordered paths ↔ p ∈ ordered paths') :
    ordered paths = ordered paths' := by
  have : Std.Irrefl fun p q : Path => p.rank < q.rank := ⟨fun p => lt_irrefl p.rank⟩
  have : Std.Antisymm fun p q : Path => p.rank < q.rank := ⟨fun _ _ h h' => absurd h' (lt_asymm h)⟩
  exact (ordered_pairwise paths).eq_of_mem_iff (ordered_pairwise paths') h

end Discovery
end DocScribe
