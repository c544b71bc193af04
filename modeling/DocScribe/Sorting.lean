/-
Sorting by insertion: stable, and simple enough to be computed with.
-/
namespace DocScribe

/-- An element put before the first one that it may stand before. -/
def insertSorted {α : Type} (le : α → α → Bool) (x : α) : List α → List α
  | [] => [x]
  | y :: ys => if le x y then x :: y :: ys else y :: insertSorted le x ys

/-- A list in the order `le`; elements that are level keep their order. -/
def sorted {α : Type} (le : α → α → Bool) : List α → List α
  | [] => []
  | x :: xs => insertSorted le x (sorted le xs)

theorem insertSorted_perm {α : Type} (le : α → α → Bool) (x : α) (l : List α) :
    (insertSorted le x l).Perm (x :: l) := by
  induction l with
  | nil => exact .refl _
  | cons y ys ih =>
    simp only [insertSorted]
    split
    · exact .refl _
    · exact (List.Perm.cons y ih).trans (.swap x y ys)

theorem sorted_perm {α : Type} (le : α → α → Bool) (l : List α) : (sorted le l).Perm l := by
  induction l with
  | nil => exact .refl _
  | cons x xs ih => exact (insertSorted_perm le x _).trans (.cons x ih)

end DocScribe
