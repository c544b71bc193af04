/-
Writing a file and reading it again.

Where paths lead depends on a file only by what it holds
(`FileTree.resolve_setNode`), so a file that could be read reads as what was
written, if the write was not refused (`FileTree.read_of_write`). However often
it is written, nothing else changes (`FileTree.resolve_writeAll`).
-/
import DocScribe.FileTree.Basic

namespace DocScribe

/-- A destination once the file at a place holds something else. -/
def Destination.rewritten (place : Place) (c : Content) : Destination → Destination
  | .file p old => .file p (if p = place then c else old)
  | d => d

namespace FileTree

variable {t : FileTree} {place : Place} {old c : Content}

theorem lookup_map_set (nodes : List (Place × Node)) (place q : Place) (n : Node) :
    (nodes.map fun m => if m.1 = place then (m.1, n) else m).lookup q =
      if q = place then (nodes.lookup place).map fun _ => n else nodes.lookup q := by
  induction nodes with
  | nil => simp
  | cons m nodes ih =>
    obtain ⟨a, v⟩ := m
    by_cases hqa : q = a
    · subst hqa
      by_cases hq : q = place
      · subst hq
        simp
      · simp [hq]
    · have hne : (q == a) = false := by simpa using hqa
      have hfst : (if a = place then (a, n) else (a, v)).1 = a := by split <;> rfl
      rw [List.map_cons, List.lookup_cons, hfst, hne, ih, List.lookup_cons, List.lookup_cons, hne]
      by_cases hq : q = place
      · subst hq
        rw [if_pos rfl, if_pos rfl, hne]
      · rw [if_neg hq, if_neg hq]

/-- What stands at the places of a tree after a file got another content. -/
theorem node?_setNode (h : t.node? place = some (.file old)) (q : Place) :
    (t.setNode place (.file c)).node? q = if q = place then some (.file c) else t.node? q := by
  have hplace : place.isEmpty = false := by
    rw [Bool.eq_false_iff]
    intro hempty
    rw [node?, if_pos hempty] at h
    cases h
  have hold : t.nodes.lookup place = some (.file old) := by
    rwa [node?, if_neg (by simp [hplace])] at h
  rw [node?, node?, setNode, hold, Option.isSome_some, if_pos rfl, lookup_map_set, hold]
  by_cases hq : q = place
  · rw [if_pos hq, if_pos hq, hq, hplace]
    rfl
  · rw [if_neg hq, if_neg hq]

theorem step_setNode (h : t.node? place = some (.file old)) {jump jump' : Place → List Text → Destination}
    (hjump : ∀ p names, jump' p names = (jump p names).rewritten place c) (p : Place) (names : List Text) :
    (t.setNode place (.file c)).step jump' p names = (t.step jump p names).rewritten place c := by
  induction names generalizing p with
  | nil => rfl
  | cons name rest ih =>
    simp only [step, node?_setNode h]
    split
    · exact ih p
    split
    · exact ih p.dropLast
    split
    · rfl
    by_cases hnext : p ++ [name] = place
    · rw [if_pos hnext, hnext, h]
      dsimp only
      split
      · simp [Destination.rewritten]
      · rfl
    · rw [if_neg hnext]
      split
      · exact ih _
      · split
        · simp [Destination.rewritten, hnext]
        · rfl
      · exact hjump _ _
      · split <;> rfl

theorem walk_setNode (h : t.node? place = some (.file old)) (links : Nat) (p : Place) (names : List Text) :
    (t.setNode place (.file c)).walk links p names = (t.walk links p names).rewritten place c := by
  induction links generalizing p names with
  | zero =>
    refine step_setNode h ?_ p names
    exact fun _ _ => rfl
  | succ links ih => exact step_setNode h ih p names

theorem resolve_setNode (h : t.node? place = some (.file old)) (p : Path) :
    (t.setNode place (.file c)).resolve p = (t.resolve p).rewritten place c := by
  unfold resolve
  split
  · rfl
  split
  · rfl
  · exact walk_setNode h _ _ _

/-- Where a path leads to a file, the file stands. -/
theorem node?_of_step {jump : Place → List Text → Destination}
    (hjump : ∀ p names, jump p names = .file place old → t.node? place = some (.file old)) {p : Place}
    {names : List Text} (h : t.step jump p names = .file place old) : t.node? place = some (.file old) := by
  induction names generalizing p with
  | nil => cases h
  | cons name rest ih =>
    simp only [step] at h
    split at h
    · exact ih h
    split at h
    · exact ih h
    split at h
    · cases h
    split at h
    · exact ih h
    · next content hnode =>
      split at h
      · cases h
        exact hnode
      · cases h
    · exact hjump _ _ h
    · split at h <;> cases h

theorem node?_of_walk {links : Nat} {p : Place} {names : List Text}
    (h : t.walk links p names = .file place old) :
    t.node? place = some (.file old) := by
  induction links generalizing p names with
  | zero => exact node?_of_step (fun _ _ h => by cases h) h
  | succ links ih => exact node?_of_step (fun _ _ h => ih h) h

theorem node?_of_resolve {p : Path} (h : t.resolve p = .file place old) : t.node? place = some (.file old) := by
  unfold resolve at h
  split at h
  · cases h
  split at h
  · cases h
  · exact node?_of_walk h

theorem exists_place {p : Path} {text : Text} (h : t.read p = .ok text) :
    ∃ place, t.resolve p = .file place (.text text) := by
  unfold read content at h
  split at h
  · next hcontent =>
    cases h
    split at hcontent
    · next place _ hresolve =>
      cases hcontent
      exact ⟨place, hresolve⟩
    all_goals cases hcontent
  · cases h
  · cases h

theorem read_of_resolve {p : Path} {text : Text} (h : t.resolve p = .file place (.text text)) :
    t.read p = .ok text := by
  rw [read, content, h]

theorem setContent_eq_ok_iff {t' : FileTree} :
    t.setContent place c = .ok t' ↔ t.refusal place c = none ∧ t.setNode place (.file c) = t' := by
  unfold setContent
  cases t.refusal place c <;> simp

theorem setContent_eq_error_iff {fault : AccessFault} :
    t.setContent place c = .error fault ↔ t.refusal place c = some fault := by
  unfold setContent
  cases t.refusal place c <;> simp

theorem write_of_resolve {p : Path} (h : t.resolve p = .file place old) (new : Text) :
    t.write p new = t.setContent place (.text new) := by
  rw [write, writeContent, h]

/-- A write to a file that is not refused changes where paths lead by what the
file holds, and nothing else. -/
theorem resolve_of_write {t' : FileTree} {p : Path} {new : Text} (h : t.resolve p = .file place old)
    (hwrite : t.write p new = .ok t') :
    (∀ q, t'.resolve q = (t.resolve q).rewritten place (.text new)) ∧ t'.refusal = t.refusal := by
  rw [write_of_resolve h] at hwrite
  obtain ⟨-, rfl⟩ := setContent_eq_ok_iff.1 hwrite
  exact ⟨resolve_setNode (node?_of_resolve h), rfl⟩

/-- **A file that could be read reads as what was written.** -/
theorem read_of_write {t' : FileTree} {p : Path} {text new : Text} (h : t.read p = .ok text)
    (hwrite : t.write p new = .ok t') : t'.read p = .ok new := by
  obtain ⟨place, hplace⟩ := exists_place h
  have hfile := (resolve_of_write hplace hwrite).1 p
  rw [hplace, Destination.rewritten, if_pos rfl] at hfile
  exact read_of_resolve hfile

/-- The file that a path leads to takes every text. -/
def Accepts (t : FileTree) (p : Path) : Prop :=
  ∀ place old, t.resolve p = .file place old → ∀ new, t.refusal place (.text new) = none

theorem Accepts.exists_write {p : Path} {text : Text} (h : t.Accepts p) (hread : t.read p = .ok text) (new : Text) :
    ∃ t', t.write p new = .ok t' := by
  obtain ⟨place, hplace⟩ := exists_place hread
  exact ⟨_, by rw [write_of_resolve hplace, setContent_eq_ok_iff.2 ⟨h place _ hplace new, rfl⟩]⟩

/-- A file that takes every text still does so once it was written. -/
theorem Accepts.written {t' : FileTree} {p : Path} {text new : Text} (h : t.Accepts p) (hread : t.read p = .ok text)
    (hwrite : t.write p new = .ok t') : t'.Accepts p := by
  obtain ⟨place, hplace⟩ := exists_place hread
  obtain ⟨hresolve, hrefusal⟩ := resolve_of_write hplace hwrite
  intro place' old' hplace'
  rw [hresolve, hplace, Destination.rewritten] at hplace'
  cases hplace'
  rw [hrefusal]
  exact h place _ hplace

/-- The tree after some texts were written at a path, one after the other. -/
def writeAll (t : FileTree) (p : Path) : List Text → Except AccessFault FileTree
  | [] => .ok t
  | new :: later =>
    match t.write p new with
    | .ok t' => t'.writeAll p later
    | .error fault => .error fault

theorem writeAll_append {t' : FileTree} {p : Path} {a b : List Text} (h : t.writeAll p a = .ok t') :
    t.writeAll p (a ++ b) = t'.writeAll p b := by
  induction a generalizing t with
  | nil =>
    cases h
    rfl
  | cons new a ih =>
    rw [List.cons_append, writeAll]
    rw [writeAll] at h
    split at h
    · exact ih h
    · cases h

theorem rewritten_self {p : Path} (h : t.resolve p = .file place old) (q : Path) :
    (t.resolve q).rewritten place old = t.resolve q := by
  cases hq : t.resolve q with
  | file place' c =>
    rw [Destination.rewritten]
    split
    · next hplace =>
      have hnode := node?_of_resolve h
      rw [← hplace, node?_of_resolve hq] at hnode
      cases hnode
      rfl
    · rfl
  | dir place' => rfl
  | absent place' => rfl
  | failed fault => rfl

theorem rewritten_rewritten (c c' : Content) (d : Destination) :
    (d.rewritten place c).rewritten place c' = d.rewritten place c' := by
  cases d with
  | file p old =>
    simp only [Destination.rewritten]
    split <;> rfl
  | dir p => rfl
  | absent p => rfl
  | failed fault => rfl

/-- A file that was written again and again was written once, and then again. -/
theorem exists_of_writeAll_cons {t' : FileTree} {p : Path} {new : Text} {later : List Text}
    (h : t.writeAll p (new :: later) = .ok t') : ∃ t₁, t.write p new = .ok t₁ ∧ t₁.writeAll p later = .ok t' := by
  rw [writeAll] at h
  split at h
  · next t₁ hwrite => exact ⟨t₁, hwrite, h⟩
  · cases h

/-- **Writing a file again and again leaves what was written last, and changes
nothing else**: every path leads where it led, and the same is refused. -/
theorem resolve_writeAll {t' : FileTree} {p : Path} {text : Text} {news : List Text}
    (h : t.resolve p = .file place (.text text)) (hwrites : t.writeAll p news = .ok t') :
    (∀ q, t'.resolve q = (t.resolve q).rewritten place (.text (news.getLast?.getD text))) ∧
      t'.refusal = t.refusal := by
  induction news generalizing t text with
  | nil =>
    cases hwrites
    exact ⟨fun q => (rewritten_self h q).symm, rfl⟩
  | cons new later ih =>
    obtain ⟨t₁, hwrite, hlater⟩ := exists_of_writeAll_cons hwrites
    obtain ⟨hresolve, hrefusal⟩ := resolve_of_write h hwrite
    have hplace : t₁.resolve p = .file place (.text new) := by
      rw [hresolve, h, Destination.rewritten, if_pos rfl]
    obtain ⟨hresolve', hrefusal'⟩ := ih hplace hlater
    refine ⟨fun q => ?_, hrefusal'.trans hrefusal⟩
    rw [hresolve', hresolve, rewritten_rewritten, List.getLast?_cons, Option.getD_some]

/-! ## What directories list -/

theorem mem_entries {place : Place} {name : Text} :
    name ∈ t.entries place ↔ ∃ n ∈ t.nodes, n.1 = place ++ [name] := by
  unfold entries
  rw [List.mem_filterMap]
  refine exists_congr fun n => and_congr_right fun _ => ?_
  constructor
  · intro h
    split at h
    · next last hlast =>
      split at h
      · next hplace =>
        cases h
        obtain ⟨above, habove⟩ := List.getLast?_eq_some_iff.1 hlast
        rw [← hplace, habove, List.dropLast_concat]
      · cases h
    · cases h
  · intro h
    simp [h]

end FileTree
end DocScribe
