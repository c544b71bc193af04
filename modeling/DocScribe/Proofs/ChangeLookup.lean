/-
The entry of a change set that a file is looked up under.

The file of an entry is its path taken from the root of the project.
`ChangeSet.own_entry_iff` says when looking this file up gives the entry back,
so that the file is worked on as if there were no other entry: not when the
entry is written with a dot at its start, and neither when an entry before it
is an end of the whole path (`SharedName.found_under_other`).
-/
import DocScribe.Proofs.Deeds
import DocScribe.Proofs.PathFacts

namespace DocScribe
namespace ChangeSet

theorem agrees_iff {written path : Path} :
    agrees written path = true ↔ written.text ≠ [] ∧
      (written.components <:+ path.components ∨ path.components <:+ written.components) := by
  simp [agrees, Path.endsWith_iff]

variable {root p : Path}

/-- A path is its own file exactly when the root adds nothing to it. -/
theorem join_same_iff (hp : p.isAbsolute = false) :
    (root.join p).same p = true ↔
      root.text = [] ∨ root.components = [.current] ∧ .current ∈ p.components := by
  by_cases hroot : root.text = []
  · simp [Path.join_eq_self hroot, Path.same, hroot]
  rw [Path.same_iff, Path.components_join hroot hp]
  by_cases hdot : .current ∈ p.components
  · have hcomponents := Path.components_of_mem_current hdot
    generalize p.components.filter (· ≠ .current) = rest at hcomponents ⊢
    rw [hcomponents, ← List.singleton_append, List.append_left_inj]
    simp [hroot]
  · rw [Path.filter_of_not_mem_current hdot]
    simp [hroot, hdot, Path.components_ne_nil hroot]

/-- A path stands for its own file, unless it has a dot that is lost on the
way. -/
theorem agrees_join_iff (hp : p.isAbsolute = false) (hne : p.text ≠ []) :
    agrees p (root.join p) = true ↔ .current ∉ p.components ∨ (root.join p).same p = true := by
  rw [agrees_iff, Path.same_iff]
  constructor
  · rintro ⟨-, hend⟩
    by_cases hdot : .current ∈ p.components
    · refine .inr ?_
      by_cases hroot : root.text = []
      · rw [Path.join_eq_self hroot]
      have hcomponents := Path.components_of_mem_current hdot
      have hjoin := Path.components_join hroot hp
      generalize p.components.filter (· ≠ .current) = rest at hcomponents hjoin
      rw [hjoin, hcomponents] at hend ⊢
      rcases hend with ⟨above, habove⟩ | hend
      · -- a dot can only be the first component of the root
        have hroot' : above ++ [.current] = root.components := by
          rwa [← List.singleton_append, ← List.append_assoc, List.append_left_inj] at habove
        cases above with
        | nil => rw [← hroot', List.nil_append, List.singleton_append]
        | cons c above =>
          have htail := Path.current_not_mem_tail root
          rw [← hroot'] at htail
          simp at htail
      · refine hend.eq_of_length_le ?_
        have hpos := List.length_pos_iff.2 (Path.components_ne_nil hroot)
        simp only [List.length_cons, List.length_append]
        omega
    · exact .inl hdot
  · refine fun h => ⟨hne, .inl ?_⟩
    rcases h with hdot | hsame
    · by_cases hroot : root.text = []
      · exact ⟨[], by rw [Path.join_eq_self hroot, List.nil_append]⟩
      · rw [Path.components_join hroot hp, Path.filter_of_not_mem_current hdot]
        exact List.suffix_append _ _
    · exact ⟨[], by rw [hsame, List.nil_append]⟩

/-! ## Looking up the file of an entry -/

variable {set : ChangeSet} {before after : List FileChange} {e : FileChange}

/-- The entries before one of a list of different paths are under other
paths. -/
theorem not_same_before (hfiles : set.files = before ++ e :: after)
    (hdistinct : set.files.Pairwise fun a b => a.path.same b.path = false) :
    ∀ x ∈ before, x.path.same e.path = false := by
  rw [hfiles, List.pairwise_append] at hdistinct
  exact fun x hx => hdistinct.2.2 x hx e List.mem_cons_self

/-- The first of some entries that is taken. -/
theorem find?_split_iff {taken : FileChange → Bool} (hnew : e ∉ before) :
    (before ++ e :: after).find? taken = some e ↔ taken e = true ∧ ∀ x ∈ before, taken x = false := by
  rw [List.find?_append, Option.or_eq_some_iff]
  constructor
  · rintro (hbefore | ⟨hnone, hfound⟩)
    · exact absurd (List.mem_of_find?_eq_some hbefore) hnew
    · exact ⟨List.find?_some hfound, by simpa using List.find?_eq_none.1 hnone⟩
  · rintro ⟨htaken, hbefore⟩
    exact .inr ⟨List.find?_eq_none.2 (by simpa using hbefore), List.find?_cons_of_pos htaken⟩

/-- The file of an entry is found under the entry when that is its very path,
or when no entry has its path and the entry is the first to agree. -/
theorem find?_eq_some_iff {path : Path} (hfiles : set.files = before ++ e :: after)
    (hdistinct : set.files.Pairwise fun a b => a.path.same b.path = false) :
    set.find? path = some e ↔ e.path.same path = true ∨
      (∀ x ∈ set.files, x.path.same path = false) ∧ agrees e.path path = true ∧
        ∀ x ∈ before, agrees x.path path = false := by
  have hnew : e ∉ before := by
    intro he
    have hself := not_same_before hfiles hdistinct e he
    simp [Path.same] at hself
  have hexact : set.files.find? (fun c => c.path.same path) = some e ↔ e.path.same path = true := by
    rw [hfiles, find?_split_iff hnew]
    refine ⟨And.left, fun hsame => ⟨hsame, fun x hx => ?_⟩⟩
    rw [← not_same_before hfiles hdistinct x hx, Path.same, Path.same, Path.same_iff.1 hsame]
  have hnone : set.files.find? (fun c => c.path.same path) = none ↔ ∀ x ∈ set.files, x.path.same path = false := by
    simp [List.find?_eq_none]
  have hagrees : set.files.find? (fun c => agrees c.path path) = some e ↔
      agrees e.path path = true ∧ ∀ x ∈ before, agrees x.path path = false := by
    rw [hfiles, find?_split_iff hnew]
  rw [find?, Option.orElse_eq_orElse, Option.orElse_eq_or, Option.or_eq_some_iff, hexact, hnone, hagrees]

theorem find?_join_iff (root : Path) (hfiles : set.files = before ++ e :: after)
    (hdistinct : set.files.Pairwise fun a b => a.path.same b.path = false)
    (hrelative : ∀ x ∈ set.files, x.path.isAbsolute = false ∧ x.path.text ≠ []) :
    set.find? (root.join e.path) = some e ↔
      root.text = [] ∨ (root.components = [.current] ∧ .current ∈ e.path.components) ∨
        .current ∉ e.path.components ∧
          (∀ x ∈ set.files, x.path.components ≠ root.components ++ e.path.components) ∧
          ∀ x ∈ before, ¬x.path.components <:+ root.components ++ e.path.components ∧
            ¬root.components ++ e.path.components <:+ x.path.components := by
  obtain ⟨hp, hne⟩ := hrelative e (by simp [hfiles])
  rw [find?_eq_some_iff hfiles hdistinct, agrees_join_iff hp hne, Path.same_comm, join_same_iff hp]
  by_cases hroot : root.text = []
  · simp [hroot]
  simp only [hroot, false_or]
  by_cases hdot : .current ∈ e.path.components
  · simp only [hdot, not_true_eq_false, false_or, false_and, or_false, and_true]
    exact or_iff_left_of_imp fun h => h.2.1
  · have hjoin : (root.join e.path).components = root.components ++ e.path.components := by
      rw [Path.components_join hroot hp, Path.filter_of_not_mem_current hdot]
    have hother : ∀ x : FileChange, x.path.same (root.join e.path) = false ↔
        x.path.components ≠ root.components ++ e.path.components := by
      intro x
      rw [← Bool.not_eq_true, Path.same_iff, hjoin]
    have hagrees : ∀ x ∈ before, agrees x.path (root.join e.path) = false ↔
        ¬x.path.components <:+ root.components ++ e.path.components ∧
          ¬root.components ++ e.path.components <:+ x.path.components := by
      intro x hx
      have hx' : x.path.text ≠ [] := (hrelative x (by simp [hfiles, hx])).2
      rw [← Bool.not_eq_true, agrees_iff, hjoin, and_iff_right hx', not_or]
    simp only [hdot, and_false, false_or, not_false_eq_true, true_or, true_and, hother]
    exact and_congr_right fun _ => forall₂_congr hagrees

/-- A file that is looked up under an entry is worked on as if there were no
other. -/
theorem outcomeOf_eq_of_find? {σ : Type} (d : Documenter σ) {path : Path} (hfiles : set.files = before ++ e :: after)
    (hdistinct : set.files.Pairwise fun a b => a.path.same b.path = false) (h : set.find? path = some e) :
    d.outcomeOf (some set) path = d.outcomeOf (some ⟨[e]⟩) path := by
  have hself : (⟨[e]⟩ : ChangeSet).files = [] ++ e :: [] := rfl
  have halone : find? ⟨[e]⟩ path = some e := by
    refine (find?_eq_some_iff hself (List.pairwise_singleton _ _)).2 ?_
    refine ((find?_eq_some_iff hfiles hdistinct).1 h).imp_right fun ⟨hother, hagrees, _⟩ => ⟨?_, hagrees, by simp⟩
    simpa using hother e (by simp [hfiles])
  simp only [Documenter.outcomeOf, Documenter.changeFor, h, halone]

/-- **When the file of an entry is worked on by that entry.** Looking it up
gives the entry back exactly when the root adds nothing to its path; or when
the path has no dot at its start, no entry is the whole path from the root, and
no entry before this one is an end of that path or ends with it. The file is
then worked on as if there were no other entry, and only what the entry touches
is found in it. -/
theorem own_entry_iff (root : Path) (hfiles : set.files = before ++ e :: after)
    (hdistinct : set.files.Pairwise fun a b => a.path.same b.path = false)
    (hrelative : ∀ x ∈ set.files, x.path.isAbsolute = false ∧ x.path.text ≠ []) :
    (set.find? (root.join e.path) = some e ↔
      root.text = [] ∨ (root.components = [.current] ∧ .current ∈ e.path.components) ∨
        .current ∉ e.path.components ∧
          (∀ x ∈ set.files, x.path.components ≠ root.components ++ e.path.components) ∧
          ∀ x ∈ before, ¬x.path.components <:+ root.components ++ e.path.components ∧
            ¬root.components ++ e.path.components <:+ x.path.components) ∧
    (set.find? (root.join e.path) = some e →
      (∀ {σ : Type} (d : Documenter σ),
        d.outcomeOf (some set) (root.join e.path) = d.outcomeOf (some ⟨[e]⟩) (root.join e.path)) ∧
      ∀ (k : KindPlan) (draft : Draft),
        ∀ c ∈ Documenter.found k (root.join e.path) (set.find? (root.join e.path)) draft,
          e.touches (draft.history.initialLine c.line) c.text = true) := by
  refine ⟨find?_join_iff root hfiles hdistinct hrelative, fun hfound => ⟨?_, ?_⟩⟩
  · intro σ d
    exact outcomeOf_eq_of_find? d hfiles hdistinct hfound
  · intro k draft c hc
    rw [hfound] at hc
    obtain ⟨m, s, -, -, -, -, htouched, rfl⟩ := mem_candidates hc
    exact htouched

end ChangeSet

/-! ## Two files of one name -/

namespace SharedName

def root : Path := ⟨"/w"⟩

def upper : FileChange := ⟨⟨"b.py"⟩, [⟨1, 2, "def f():\n"⟩]⟩

def lower : FileChange := ⟨⟨"a/b.py"⟩, [⟨5, 6, "def g():\n"⟩]⟩

/-- The file that comes second is not mistaken for the longer path. -/
theorem own_entry_iff_upper : ChangeSet.find? ⟨[lower, upper]⟩ (root.join upper.path) = some upper := by
  have hfiles : (⟨[lower, upper]⟩ : ChangeSet).files = [lower] ++ upper :: [] := rfl
  exact (ChangeSet.own_entry_iff root hfiles (by decide) (by decide)).1.2 (by decide)

/-- The file `a/b.py` is looked up under `b.py`, which comes first. -/
theorem found_under_other :
    [upper, lower].Pairwise (fun a b => a.path.same b.path = false) ∧
      (∀ x ∈ [upper, lower], x.path.isAbsolute = false ∧ x.path.text ≠ []) ∧
      ChangeSet.find? ⟨[upper, lower]⟩ (root.join lower.path) = some upper ∧ upper ≠ lower := by
  decide

end SharedName
end DocScribe
