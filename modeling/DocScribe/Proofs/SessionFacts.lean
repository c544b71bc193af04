/-
Sessions keep one candidate to a name.

`Session.Sound` says that the index of a session lists the names of its
candidates with their places, and that no name comes twice. Inserting keeps
it (`Session.Sound.insert`), and inserts nothing else (`mem_insert`). When the
names that come in are all different, nothing is replaced
(`candidates_insertAll`).
-/
import DocScribe.Scan.Session

namespace DocScribe
namespace Session

theorem lookup_zipIdx_some {l : List Text} {name : Text} {i : Nat} :
    ∀ {k : Nat}, (l.zipIdx k).lookup name = some i → k ≤ i ∧ l[i - k]? = some name := by
  induction l with
  | nil => intro k h; simp at h
  | cons a l ih =>
    intro k h
    rw [List.zipIdx_cons, List.lookup_cons] at h
    split at h
    · next he =>
      cases h
      have : name = a := by simpa using he
      simp [this]
    · obtain ⟨hk, hi⟩ := ih h
      refine ⟨by omega, ?_⟩
      rw [show i - k = (i - (k + 1)) + 1 by omega, List.getElem?_cons_succ]
      exact hi

theorem lookup_zipIdx_none {l : List Text} {name : Text} :
    ∀ {k : Nat}, (l.zipIdx k).lookup name = none → name ∉ l := by
  induction l with
  | nil => intro k _; simp
  | cons a l ih =>
    intro k h
    rw [List.zipIdx_cons, List.lookup_cons] at h
    split at h
    · cases h
    · next he =>
      have hne : name ≠ a := by simpa using he
      simp [hne, ih h]

/-- The index lists the names with their places, and no name comes twice. -/
structure Sound (s : Session) : Prop where
  index : s.index = s.names.zipIdx
  nodup : s.names.Nodup

theorem Sound.empty (file : Path) (kind : Kind) : Sound (Session.empty file kind) := ⟨rfl, List.nodup_nil⟩

theorem Sound.insert {s : Session} (h : s.Sound) (c : Candidate) : (s.insert c).Sound := by
  unfold Session.insert
  split
  · next i hi =>
    rw [h.index] at hi
    have hname : s.names[i]? = some c.name := by simpa using (lookup_zipIdx_some hi).2
    have hsame : (s.candidates.set i c).map (·.name) = s.names := by
      obtain ⟨hlt, hget⟩ := List.getElem?_eq_some_iff.1 hname
      rw [List.map_set, ← hget]
      exact List.set_getElem_self hlt
    exact ⟨by simpa [names, hsame] using h.index, by simpa [names, hsame] using h.nodup⟩
  · next hi =>
    rw [h.index] at hi
    have hnot := lookup_zipIdx_none hi
    refine ⟨?_, ?_⟩
    · simp [names, h.index, List.zipIdx_append]
    · have := h.nodup
      simp only [names, List.map_append, List.map_cons, List.map_nil] at *
      exact List.nodup_append.2 ⟨this, by simp, by simpa using fun a ha he => hnot (List.mem_map.2 ⟨a, ha, he⟩)⟩

theorem mem_insert {s : Session} {c d : Candidate} (h : d ∈ (s.insert c).candidates) :
    d = c ∨ d ∈ s.candidates := by
  unfold Session.insert at h
  split at h
  · exact (List.mem_or_eq_of_mem_set h).symm
  · rcases List.mem_append.1 h with h | h
    · exact .inr h
    · exact .inl (List.mem_singleton.1 h)

theorem Sound.insertAll {s : Session} (h : s.Sound) (cs : List Candidate) :
    (cs.foldl Session.insert s).Sound := by
  induction cs generalizing s with
  | nil => exact h
  | cons c cs ih => exact ih (h.insert c)

theorem mem_insertAll {s : Session} {cs : List Candidate} {d : Candidate}
    (h : d ∈ (cs.foldl insert s).candidates) : d ∈ cs ∨ d ∈ s.candidates := by
  induction cs generalizing s with
  | nil => exact .inr h
  | cons c cs ih =>
    rcases ih h with hd | hd
    · exact .inl (List.mem_cons_of_mem c hd)
    · rcases mem_insert hd with rfl | hd
      · exact .inl List.mem_cons_self
      · exact .inr hd

/-- Candidates with new names that are all different stand one after the
other. -/
theorem candidates_insertAll {s : Session} (h : s.Sound) {cs : List Candidate}
    (hnew : (s.names ++ cs.map (·.name)).Nodup) :
    (cs.foldl insert s).candidates = s.candidates ++ cs := by
  induction cs generalizing s with
  | nil => simp
  | cons c cs ih =>
    have hnot : c.name ∉ s.names := by
      intro hm
      simp only [List.map_cons] at hnew
      exact (List.nodup_append.1 hnew).2.2 _ hm _ List.mem_cons_self rfl
    have hlookup : s.index.lookup c.name = none := by
      cases hl : s.index.lookup c.name with
      | none => rfl
      | some i =>
        rw [h.index] at hl
        exact absurd (List.mem_of_getElem? (lookup_zipIdx_some hl).2) hnot
    have hinsert : (s.insert c).candidates = s.candidates ++ [c] := by
      simp only [Session.insert, hlookup]
    have hnames : (s.insert c).names = s.names ++ [c.name] := by simp [names, hinsert]
    rw [List.foldl_cons, ih (h.insert c) (by simpa [hnames] using hnew), hinsert, List.append_assoc]
    rfl

end Session
end DocScribe
