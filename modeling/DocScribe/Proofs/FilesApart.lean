/-
Files apart from one another.

Paths are separate in a tree when no two of them lead to the same file
(`FileTree.Separate`). `FileTree.Edits` is what the work on a file does to a
tree: some texts are written to a file that could be read. It leaves every other
file as it is (`FileTree.Edits.elsewhere`) and refuses what was refused before
(`FileTree.Edits.concur`), and it does not matter which of two files is worked
on first (`FileTree.Edits.comm`).
-/
import DocScribe.Proofs.TreeFacts

namespace DocScribe
namespace FileTree

variable {t t' : FileTree} {p q : Path} {place : Place}

/-! ## Separate paths -/

/-- The place of the file that a path leads to. -/
def filePlace? (t : FileTree) (p : Path) : Option Place :=
  match t.resolve p with
  | .file place _ => some place
  | _ => none

/-- Two paths that do not lead to the same file. -/
def Apart (t : FileTree) (p q : Path) : Prop := ∀ place ∈ t.filePlace? p, place ∉ t.filePlace? q

/-- No two of some paths lead to the same file. -/
def Separate (t : FileTree) (paths : List Path) : Prop := (paths.filterMap t.filePlace?).Nodup

instance (t : FileTree) (paths : List Path) : Decidable (t.Separate paths) :=
  inferInstanceAs (Decidable (List.Nodup _))

theorem filePlace?_of_resolve {c : Content} (h : t.resolve p = .file place c) : t.filePlace? p = some place := by
  rw [filePlace?, h]

theorem Apart.symm (h : t.Apart p q) : t.Apart q p := fun place hq hp => h place hp hq

theorem Apart.congr {u : FileTree} (h : t.Apart p q) (hp : u.resolve p = t.resolve p) (hq : u.resolve q = t.resolve q) :
    u.Apart p q := by
  unfold Apart filePlace? at h ⊢
  rwa [hp, hq]

theorem Separate.tail {paths : List Path} (h : t.Separate (p :: paths)) : t.Separate paths := by
  unfold Separate at h
  rw [List.filterMap_cons] at h
  split at h
  · exact h
  · exact (List.nodup_cons.1 h).2

theorem Separate.apart {paths : List Path} (h : t.Separate (p :: paths)) : ∀ q ∈ paths, t.Apart p q := by
  intro q hq place hp hplace
  unfold Separate at h
  rw [List.filterMap_cons_some (Option.mem_def.1 hp)] at h
  exact (List.nodup_cons.1 h).1 (List.mem_filterMap.2 ⟨q, hq, hplace⟩)

theorem Separate.perm {paths paths' : List Path} (hperm : paths.Perm paths') (h : t.Separate paths) :
    t.Separate paths' :=
  (hperm.filterMap _).nodup_iff.1 h

/-! ## Writing one of them -/

theorem rewritten_elsewhere (h : place ∉ t.filePlace? q) (c : Content) :
    (t.resolve q).rewritten place c = t.resolve q := by
  cases hq : t.resolve q with
  | file place' old =>
    have hne : place' ≠ place := by
      rintro rfl
      exact h (filePlace?_of_resolve hq)
    rw [Destination.rewritten, if_neg hne]
  | dir place' => rfl
  | absent place' => rfl
  | failed fault => rfl

/-- A tree after some texts were written at a path, none unless the path led to
a text. -/
structure Edits (t : FileTree) (p : Path) (news : List Text) (t' : FileTree) : Prop where
  writeAll : t.writeAll p news = .ok t'
  legible : news ≠ [] → ∃ text, t.read p = .ok text

namespace Edits

variable {news : List Text}

theorem refl (t : FileTree) (p : Path) : t.Edits p [] t := ⟨rfl, fun h => absurd rfl h⟩

theorem eq_of_nil (h : t.Edits p [] t') : t' = t := (Except.ok.inj h.writeAll).symm

theorem unique {t₁ t₂ : FileTree} (h₁ : t.Edits p news t₁) (h₂ : t.Edits p news t₂) : t₁ = t₂ :=
  Except.ok.inj (h₁.writeAll.symm.trans h₂.writeAll)

theorem place_of_ne_nil (h : t.Edits p news t') (hsome : news ≠ []) :
    ∃ place text, t.resolve p = .file place (.text text) := by
  obtain ⟨text, hread⟩ := h.legible hsome
  obtain ⟨place, hplace⟩ := exists_place hread
  exact ⟨place, text, hplace⟩

/-- One more text is written. -/
theorem snoc {text new : Text} {t'' : FileTree} (hread : t.read p = .ok text) (h : t.Edits p news t')
    (hwrite : t'.write p new = .ok t'') : t.Edits p (news ++ [new]) t'' := by
  refine ⟨?_, fun _ => ⟨text, hread⟩⟩
  rw [writeAll_append h.writeAll, FileTree.writeAll, hwrite]
  rfl

theorem elsewhere (h : t.Edits p news t') (hapart : t.Apart p q) : t'.resolve q = t.resolve q := by
  by_cases hnone : news = []
  · subst hnone
    rw [h.eq_of_nil]
  · obtain ⟨place, text, hplace⟩ := h.place_of_ne_nil hnone
    rw [(resolve_writeAll hplace h.writeAll).1, rewritten_elsewhere (hapart place (filePlace?_of_resolve hplace))]

/-- Paths keep leading to the files that they led to. -/
theorem filePlace?_eq (h : t.Edits p news t') (q : Path) : t'.filePlace? q = t.filePlace? q := by
  by_cases hnone : news = []
  · subst hnone
    rw [h.eq_of_nil]
  · obtain ⟨place, text, hplace⟩ := h.place_of_ne_nil hnone
    rw [filePlace?, filePlace?, (resolve_writeAll hplace h.writeAll).1]
    cases t.resolve q <;> rfl

/-- The tree refuses what it refused. -/
theorem refusal_eq (h : t.Edits p news t') : t'.refusal = t.refusal := by
  by_cases hnone : news = []
  · subst hnone
    rw [h.eq_of_nil]
  · obtain ⟨place, text, hplace⟩ := h.place_of_ne_nil hnone
    exact (resolve_writeAll hplace h.writeAll).2

theorem apart_iff (h : t.Edits p news t') {a b : Path} : t'.Apart a b ↔ t.Apart a b := by
  rw [Apart, Apart, h.filePlace?_eq, h.filePlace?_eq]

theorem separate (h : t.Edits p news t') {paths : List Path} (hpaths : t.Separate paths) : t'.Separate paths := by
  unfold Separate
  rwa [funext h.filePlace?_eq]

/-- Where the file is, and what is refused, stays the same, and so does what
becomes of a write. -/
theorem write_eq_error_iff {text new : Text} {fault : AccessFault} (hread : t.read p = .ok text)
    (h : t.Edits p news t') : t'.write p new = .error fault ↔ t.write p new = .error fault := by
  obtain ⟨place, hplace⟩ := exists_place hread
  have hplace' := (resolve_writeAll hplace h.writeAll).1 p
  rw [hplace, Destination.rewritten, if_pos rfl] at hplace'
  rw [write_of_resolve hplace', write_of_resolve hplace, setContent_eq_error_iff, setContent_eq_error_iff, h.refusal_eq]

end Edits

/-- Trees in which a path leads to the same, and which refuse the same. -/
structure Concur (p : Path) (t u : FileTree) : Prop where
  resolve : t.resolve p = u.resolve p
  refusal : t.refusal = u.refusal

namespace Concur

variable {u : FileTree}

theorem refl (p : Path) (t : FileTree) : Concur p t t := ⟨rfl, rfl⟩

theorem read (h : Concur p t u) : t.read p = u.read p := by
  rw [FileTree.read, FileTree.content, h.resolve]
  rfl

theorem write_eq_error_iff {text new : Text} {fault : AccessFault} (hread : t.read p = .ok text) (h : Concur p t u) :
    t.write p new = .error fault ↔ u.write p new = .error fault := by
  obtain ⟨place, hplace⟩ := exists_place hread
  rw [write_of_resolve hplace, write_of_resolve (h.resolve.symm.trans hplace), setContent_eq_error_iff,
    setContent_eq_error_iff, h.refusal]

end Concur

/-- What is written to one file makes no difference to the others. -/
theorem Edits.concur {news : List Text} (h : t.Edits p news t') (hapart : t.Apart p q) : Concur q t' t :=
  ⟨h.elsewhere hapart, h.refusal_eq⟩

/-! ## The order of writing -/

/-- A tree with another content in the file at a place. -/
def overwrite (t : FileTree) (place : Place) (c : Content) : FileTree :=
  { t with nodes := t.nodes.map fun m => if m.1 = place then (m.1, .file c) else m }

theorem overwrite_comm (t : FileTree) {a b : Place} (h : a ≠ b) (c c' : Content) :
    (t.overwrite a c).overwrite b c' = (t.overwrite b c').overwrite a c := by
  simp only [overwrite, List.map_map]
  congr 1
  refine List.map_congr_left fun m _ => ?_
  by_cases ha : m.1 = a
  · simp [ha, h]
  · by_cases hb : m.1 = b
    · simp [hb, Ne.symm h]
    · simp [ha, hb]

/-- The tree after some texts were put into the file at a place, one after the
other. -/
def overwriteAll (t : FileTree) (place : Place) (news : List Text) : FileTree :=
  news.foldl (fun t new => t.overwrite place (.text new)) t

theorem overwriteAll_comm (t : FileTree) {a b : Place} (h : a ≠ b) (news later : List Text) :
    (t.overwriteAll a news).overwriteAll b later = (t.overwriteAll b later).overwriteAll a news := by
  have hone (t : FileTree) (new : Text) :
      (t.overwriteAll a news).overwrite b (.text new) = (t.overwrite b (.text new)).overwriteAll a news := by
    induction news generalizing t with
    | nil => rfl
    | cons first news ih =>
      have hfirst := ih (t.overwrite a (.text first))
      rw [overwrite_comm t h] at hfirst
      exact hfirst
  induction later generalizing t with
  | nil => rfl
  | cons new later ih =>
    have hlater := ih (t.overwrite b (.text new))
    rw [← hone] at hlater
    exact hlater

theorem eq_of_writeAll {text : Text} {news : List Text} (h : t.resolve p = .file place (.text text))
    (hwrites : t.writeAll p news = .ok t') : t' = t.overwriteAll place news := by
  induction news generalizing t text with
  | nil =>
    cases hwrites
    rfl
  | cons new later ih =>
    obtain ⟨t₁, hwrite, hlater⟩ := exists_of_writeAll_cons hwrites
    have hnode := node?_of_resolve h
    have hold : (t.nodes.lookup place).isSome = true := by
      unfold node? at hnode
      split at hnode
      · cases hnode
      · rw [hnode]
        rfl
    have hset : t.setNode place (.file (.text new)) = t.overwrite place (.text new) := by
      rw [setNode, if_pos hold]
      rfl
    have hplace : t₁.resolve p = .file place (.text new) := by
      rw [(resolve_of_write h hwrite).1, h, Destination.rewritten, if_pos rfl]
    rw [write_of_resolve h] at hwrite
    obtain ⟨-, rfl⟩ := setContent_eq_ok_iff.1 hwrite
    rw [ih hplace hlater, hset]
    rfl

/-- **It does not matter which of two files is worked on first.** -/
theorem Edits.comm {news later : List Text} {t₁ t₂ t₁₂ t₂₁ : FileTree} (hapart : t.Apart p q)
    (h₁ : t.Edits p news t₁) (h₁₂ : t₁.Edits q later t₁₂) (h₂ : t.Edits q later t₂) (h₂₁ : t₂.Edits p news t₂₁) :
    t₁₂ = t₂₁ := by
  by_cases hnews : news = []
  · subst hnews
    rw [h₁.eq_of_nil] at h₁₂
    rw [h₂₁.eq_of_nil]
    exact h₁₂.unique h₂
  by_cases hlater : later = []
  · subst hlater
    rw [h₂.eq_of_nil] at h₂₁
    rw [h₁₂.eq_of_nil]
    exact h₁.unique h₂₁
  obtain ⟨a, x, ha⟩ := h₁.place_of_ne_nil hnews
  obtain ⟨b, y, hb⟩ := h₂.place_of_ne_nil hlater
  have hne : a ≠ b := by
    rintro rfl
    exact hapart a (filePlace?_of_resolve ha) (filePlace?_of_resolve hb)
  have hb₁ : t₁.resolve q = .file b (.text y) := (h₁.elsewhere hapart).trans hb
  have ha₂ : t₂.resolve p = .file a (.text x) := (h₂.elsewhere hapart.symm).trans ha
  rw [eq_of_writeAll hb₁ h₁₂.writeAll, eq_of_writeAll ha₂ h₂₁.writeAll, eq_of_writeAll ha h₁.writeAll,
    eq_of_writeAll hb h₂.writeAll, overwriteAll_comm t hne]

end FileTree
end DocScribe
