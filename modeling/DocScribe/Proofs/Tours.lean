/-
The directories that a walk enters.

`Walk.Tour` is a walk without fuel and without what it takes: the directories
still to be looked at, the places that were entered, and the directories that
are entered from there on, in their order. Every walk is a tour
(`Walk.harvest_tour`): the fuel is enough, since a walk goes deeper only from a
place with entries that it has not been in. A tour enters no place twice
(`Walk.Tour.nodup`) and misses no directory that leads on from one it entered
(`Walk.Tour.below_entered`).
-/
import DocScribe.Discovery.Basic
import DocScribe.Proofs.TreeFacts
import Mathlib.Data.List.Count
import Mathlib.Data.List.Nodup

namespace DocScribe
namespace Walk

variable {w : Walk}

/-- What a directory lists, as paths. -/
def listed (w : Walk) (dir : Path) (place : Place) : List Path :=
  (w.tree.entries place).map fun name => dir.join ⟨name⟩

/-- Whether a walk enters a path that it comes to, places that it has been in
apart. -/
def opens (w : Walk) (path : Path) : Bool :=
  w.tree.isDirectory path && !w.skips path true && !w.isProject path

/-- Whether a walk takes a path that it comes to. -/
def gathers (w : Walk) (path : Path) : Bool :=
  !w.tree.isDirectory path && !w.skips path false && w.takes path

/-- The directories that lead on from a directory. -/
def below (w : Walk) (dir : Path) (place : Place) : List Path := (w.listed dir place).filter w.opens

/-- The files that are taken in a directory. -/
def taken (w : Walk) (dir : Path) (place : Place) : List Path := (w.listed dir place).filter w.gathers

/-- The directories that a walk enters: `dirs` are still to be looked at and
`seen` were entered before. -/
inductive Tour (w : Walk) : List Path → List Place → List (Path × Place) → Prop
  | done (seen : List Place) : Tour w [] seen []
  | away {dir : Path} {dirs : List Path} {seen : List Place} {found : List (Path × Place)}
      (hdir : w.tree.directory? dir = none) (hrest : Tour w dirs seen found) : Tour w (dir :: dirs) seen found
  | again {dir : Path} {place : Place} {dirs : List Path} {seen : List Place} {found : List (Path × Place)}
      (hdir : w.tree.directory? dir = some place) (hseen : place ∈ seen) (hrest : Tour w dirs seen found) :
      Tour w (dir :: dirs) seen found
  | enter {dir : Path} {place : Place} {dirs : List Path} {seen : List Place} {found : List (Path × Place)}
      (hdir : w.tree.directory? dir = some place) (hnew : place ∉ seen)
      (hrest : Tour w (w.below dir place ++ dirs) (place :: seen) found) :
      Tour w (dir :: dirs) seen ((dir, place) :: found)

/-! ## A walk is a tour -/

/-- The number of nodes in directories that were not entered. -/
def unseen (w : Walk) (seen : List Place) : Nat := w.tree.nodes.countP fun n => n.1.dropLast ∉ seen

theorem unseen_le (w : Walk) {seen seen' : List Place} (h : seen ⊆ seen') : w.unseen seen' ≤ w.unseen seen := by
  refine List.countP_mono_left fun n _ hn => ?_
  rw [decide_eq_true_iff] at hn ⊢
  exact fun hmem => hn (h hmem)

/-- To enter a directory is to see the nodes of all its entries. -/
theorem unseen_add_entries {place : Place} {seen : List Place} (hnew : place ∉ seen) :
    w.unseen (place :: seen) + (w.tree.entries place).length ≤ w.unseen seen := by
  have hsplit : w.unseen seen =
      w.unseen (place :: seen) + w.tree.nodes.countP fun n => n.1.dropLast = place := by
    rw [unseen, List.countP_eq_countP_filter_add _ _ fun n => n.1.dropLast ≠ place, List.countP_filter,
      List.countP_filter, unseen]
    congr 2 <;> funext n <;> by_cases hplace : n.1.dropLast = place <;> simp [hplace, hnew]
  have hentries : (w.tree.entries place).length ≤ w.tree.nodes.countP fun n => n.1.dropLast = place := by
    rw [FileTree.entries, List.length_filterMap_eq_countP]
    refine List.countP_mono_left fun n _ hn => ?_
    cases hlast : n.1.getLast? with
    | none => simp [hlast] at hn
    | some name => simpa [hlast] using hn
  omega

/-- To enter a directory with entries is to see some nodes. -/
theorem unseen_lt {place : Place} {seen : List Place} (hnew : place ∉ seen) (hsome : w.tree.entries place ≠ []) :
    w.unseen (place :: seen) < w.unseen seen := by
  have hentries := unseen_add_entries (w := w) hnew
  have := List.length_pos_iff.2 hsome
  omega

/-- What is taken in some directories. -/
def takenIn (w : Walk) (found : List (Path × Place)) : List Path := found.flatMap fun e => w.taken e.1 e.2

/-- A harvest with that of some directories, and with some files: whatever
comes next, the directories are toured before it. -/
structure Covers (w : Walk) (dirs files : List Path) (h h' : Harvest) : Prop where
  grows : h.visited ⊆ h'.visited
  tour : ∀ later rest, w.Tour later h'.visited rest → ∃ found, w.Tour (dirs ++ later) h.visited (found ++ rest) ∧
    h'.files.Perm (h.files ++ (files ++ w.takenIn found))

theorem Covers.refl (w : Walk) (h : Harvest) : w.Covers [] [] h h where
  grows := List.Subset.refl _
  tour _ _ htour := ⟨[], htour, by simp [takenIn]⟩

theorem Covers.trans {dirs₁ dirs₂ files₁ files₂ : List Path} {h h₁ h₂ : Harvest} (h₁₂ : w.Covers dirs₁ files₁ h h₁)
    (h₂₃ : w.Covers dirs₂ files₂ h₁ h₂) : w.Covers (dirs₁ ++ dirs₂) (files₁ ++ files₂) h h₂ where
  grows := List.Subset.trans h₁₂.grows h₂₃.grows
  tour later rest htour := by
    obtain ⟨found₂, htour₂, hfiles₂⟩ := h₂₃.tour later rest htour
    obtain ⟨found₁, htour₁, hfiles₁⟩ := h₁₂.tour _ _ htour₂
    refine ⟨found₁ ++ found₂, by simpa using htour₁, ?_⟩
    refine List.perm_iff_count.2 fun p => ?_
    have hcount₁ := hfiles₁.count_eq p
    have hcount₂ := hfiles₂.count_eq p
    simp only [takenIn, List.flatMap_append, List.count_append] at hcount₁ hcount₂ ⊢
    omega

theorem Covers.file (w : Walk) (h : Harvest) (path : Path) (events : List Event) :
    w.Covers [] [path] h { h with files := h.files ++ [path], events } where
  grows := List.Subset.refl _
  tour _ _ htour := ⟨[], htour, by simp [takenIn]⟩

/-- One entry: a directory that the walk opens is entered, a file that it
gathers is taken, and all else is passed over. -/
theorem addEntry_covers {enter : Path → Harvest → Harvest} {h : Harvest}
    (henter : ∀ dir, w.Covers [dir] [] h (enter dir h)) (dir : Path) (name : Text) :
    w.Covers ([dir.join ⟨name⟩].filter w.opens) ([dir.join ⟨name⟩].filter w.gathers) h
      (w.addEntry enter dir h name) := by
  generalize hpath : dir.join ⟨name⟩ = path
  simp only [addEntry, hpath, List.filter_cons, List.filter_nil]
  cases hdirectory : w.tree.isDirectory path with
  | false =>
    have hopens : w.opens path = false := by simp [opens, hdirectory]
    cases hskips : w.skips path false <;> cases htakes : w.takes path <;>
      simp only [hopens, gathers, hdirectory, hskips, htakes]
    case false.true => exact .file w h path _
    all_goals exact .refl w h
  | true =>
    have hgathers : w.gathers path = false := by simp [gathers, hdirectory]
    cases hskips : w.skips path true <;> cases hproject : w.isProject path <;>
      simp only [hgathers, opens, hdirectory, hskips, hproject]
    case false.false => exact henter path
    all_goals exact .refl w h

/-- The entries of a directory, one after the other. -/
theorem foldl_addEntry_covers {enter : Path → Harvest → Harvest} {seen : List Place}
    (henter : ∀ dir h, seen ⊆ h.visited → w.Covers [dir] [] h (enter dir h)) (dir : Path) (names : List Text)
    {h : Harvest} (hseen : seen ⊆ h.visited) :
    w.Covers ((names.map fun name => dir.join ⟨name⟩).filter w.opens)
      ((names.map fun name => dir.join ⟨name⟩).filter w.gathers) h (names.foldl (w.addEntry enter dir) h) := by
  induction names generalizing h with
  | nil => exact .refl w h
  | cons name names ih =>
    have hentry := addEntry_covers (fun dir => henter dir h hseen) dir name
    have hrest := ih (List.Subset.trans hseen hentry.grows)
    have hcovers := hentry.trans hrest
    rwa [← List.filter_append, ← List.filter_append] at hcovers

/-- With enough fuel to look at every node, a directory is toured to its
end. -/
theorem addDirectory_covers (w : Walk) {fuel : Nat} (dir : Path) {h : Harvest} (hfuel : w.unseen h.visited < fuel) :
    w.Covers [dir] [] h (w.addDirectory fuel dir h) := by
  induction fuel generalizing dir h with
  | zero => exact absurd hfuel (Nat.not_lt_zero _)
  | succ fuel ih =>
    rw [addDirectory]
    split
    · next hdir => exact ⟨List.Subset.refl _, fun _ _ htour => ⟨[], .away hdir htour, by simp [takenIn]⟩⟩
    next place hdir =>
    split
    · next hseen =>
      rw [List.contains_iff_mem] at hseen
      exact ⟨List.Subset.refl _, fun _ _ htour => ⟨[], .again hdir hseen htour, by simp [takenIn]⟩⟩
    next hnew =>
    rw [List.contains_iff_mem] at hnew
    have hentries : w.Covers (w.below dir place) (w.taken dir place) { h with visited := place :: h.visited }
        ((w.tree.entries place).foldl (w.addEntry (w.addDirectory fuel) dir)
          { h with visited := place :: h.visited }) := by
      by_cases hsome : w.tree.entries place = []
      · rw [below, taken, listed, hsome]
        exact .refl w _
      · refine foldl_addEntry_covers (fun dir h' hseen => ih dir ?_) dir _ (List.Subset.refl _)
        have hless := unseen_lt hnew hsome
        exact Nat.lt_of_le_of_lt (w.unseen_le hseen) (Nat.lt_of_lt_of_le hless (Nat.le_of_lt_succ hfuel))
    refine ⟨List.Subset.trans (List.subset_cons_self _ _) hentries.grows, fun later rest htour => ?_⟩
    obtain ⟨found, htour, hfiles⟩ := hentries.tour later rest htour
    exact ⟨(dir, place) :: found, .enter hdir hnew htour, by simpa [takenIn] using hfiles⟩

/-- **A walk is a tour from the root**, and its harvest is what is taken in the
directories of the tour. -/
theorem harvest_tour (w : Walk) :
    ∃ found, w.Tour [w.root] [] found ∧ w.harvest.files.Perm (w.takenIn found) := by
  have hfuel : w.unseen [] < w.tree.nodes.length + 2 :=
    Nat.lt_of_le_of_lt List.countP_le_length (Nat.lt_add_of_pos_right Nat.two_pos)
  obtain ⟨found, htour, hfiles⟩ := (w.addDirectory_covers w.root (h := {}) hfuel).tour [] [] (.done _)
  exact ⟨found, by simpa using htour, by simpa [harvest] using hfiles⟩

/-! ## What a tour enters -/

namespace Tour

variable {dirs : List Path} {seen : List Place} {found : List (Path × Place)}

/-- **No place is entered twice.** -/
theorem nodup (h : w.Tour dirs seen found) : (found.map (·.2)).Nodup ∧ ∀ e ∈ found, e.2 ∉ seen := by
  induction h with
  | done seen => simp
  | away _ _ ih => exact ih
  | again _ _ _ ih => exact ih
  | @enter dir place dirs seen found _ hnew _ ih =>
    obtain ⟨hnodup, hfresh⟩ := ih
    have hplace : place ∉ found.map (·.2) := by
      intro hmem
      obtain ⟨e, he, rfl⟩ := List.mem_map.1 hmem
      exact hfresh e he List.mem_cons_self
    refine ⟨List.nodup_cons.2 ⟨hplace, hnodup⟩, List.forall_mem_cons.2 ⟨hnew, fun e he hseen => ?_⟩⟩
    exact hfresh e he (List.mem_cons_of_mem _ hseen)

/-- A place is entered by one path only. -/
theorem path_unique (h : w.Tour dirs seen found) {e e' : Path × Place} (he : e ∈ found) (he' : e' ∈ found)
    (hplace : e.2 = e'.2) : e = e' :=
  List.inj_on_of_nodup_map h.nodup.1 he he' hplace

theorem seen_or_entered {p place : Place} (dir : Path) (h : p ∈ place :: seen ∨ p ∈ found.map (·.2)) :
    p ∈ seen ∨ p ∈ ((dir, place) :: found).map (·.2) := by
  simp only [List.mem_cons, List.map_cons] at h ⊢
  tauto

/-- The directories that are to be looked at are entered, by one path or
another. -/
theorem pending_entered (h : w.Tour dirs seen found) {dir : Path} {place : Place} (hmem : dir ∈ dirs)
    (hdir : w.tree.directory? dir = some place) : place ∈ seen ∨ place ∈ found.map (·.2) := by
  induction h with
  | done seen => cases hmem
  | away hnone _ ih =>
    rcases List.mem_cons.1 hmem with rfl | hmem
    · rw [hnone] at hdir
      cases hdir
    · exact ih hmem
  | again hsome hseen _ ih =>
    rcases List.mem_cons.1 hmem with rfl | hmem
    · rw [hsome] at hdir
      cases hdir
      exact .inl hseen
    · exact ih hmem
  | enter hsome _ _ ih =>
    rcases List.mem_cons.1 hmem with rfl | hmem
    · rw [hsome] at hdir
      cases hdir
      exact .inr List.mem_cons_self
    · exact seen_or_entered _ (ih (List.mem_append_right _ hmem))

/-- **Nothing is missed**: the directories that lead on from one that was entered
are entered, by one path or another. -/
theorem below_entered (h : w.Tour dirs seen found) {e : Path × Place} (he : e ∈ found) {dir : Path} {place : Place}
    (hmem : dir ∈ w.below e.1 e.2) (hdir : w.tree.directory? dir = some place) :
    place ∈ seen ∨ place ∈ found.map (·.2) := by
  induction h with
  | done seen => cases he
  | away _ _ ih => exact ih he
  | again _ _ _ ih => exact ih he
  | enter _ _ hrest ih =>
    refine seen_or_entered _ ?_
    rcases List.mem_cons.1 he with rfl | he
    · exact hrest.pending_entered (List.mem_append_left _ hmem) hdir
    · exact ih he

end Tour

end Walk
end DocScribe
