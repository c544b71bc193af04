/-
What a change leaves of a scan.

Before names are told apart, a change leaves exactly those candidates that it
touches, in their order (`Grammar.found_change`). The session then keeps the
last candidate of each name (`mem_candidates_iff`). So a change with fewer
regions leaves fewer names, but what it leaves of a name may be another
construct: one that stands earlier in the text (`scan_change_mono`).
-/
import DocScribe.Proofs.PythonGrammar
import DocScribe.Proofs.Signatures
import Mathlib.Data.List.Nodup

namespace DocScribe

/-! ## The last candidate of a name -/

/-- `c` stands in a list, and no candidate behind it has its name. -/
def Candidate.LastIn (c : Candidate) (cs : List Candidate) : Prop :=
  ∃ above below, cs = above ++ c :: below ∧ c.name ∉ below.map (·.name)

namespace Candidate

variable {c d : Candidate} {cs cs' : List Candidate}

theorem LastIn.mem (h : c.LastIn cs) : c ∈ cs := by
  obtain ⟨above, below, rfl, -⟩ := h
  simp

theorem lastIn_cons : d.LastIn (c :: cs) ↔ d.LastIn cs ∨ d = c ∧ d.name ∉ cs.map (·.name) := by
  constructor
  · intro ⟨above, below, heq, hbelow⟩
    cases above with
    | nil =>
      obtain ⟨rfl, rfl⟩ := List.cons.inj heq
      exact .inr ⟨rfl, hbelow⟩
    | cons a above =>
      obtain ⟨rfl, rfl⟩ := List.cons.inj heq
      exact .inl ⟨above, below, rfl, hbelow⟩
  · rintro (⟨above, below, rfl, hbelow⟩ | ⟨rfl, hbelow⟩)
    · exact ⟨c :: above, below, rfl, hbelow⟩
    · exact ⟨[], cs, rfl, hbelow⟩

/-- Every name of a list has a last candidate. -/
theorem exists_lastIn {name : Text} (h : name ∈ cs.map (·.name)) : ∃ d : Candidate, d.LastIn cs ∧ d.name = name := by
  induction cs with
  | nil => simp at h
  | cons a cs ih =>
    by_cases hlater : name ∈ cs.map (·.name)
    · obtain ⟨d, hd, hname⟩ := ih hlater
      exact ⟨d, lastIn_cons.2 (.inl hd), hname⟩
    · have hname : a.name = name := by
        simp only [List.map_cons, List.mem_cons, hlater, or_false] at h
        exact h.symm
      exact ⟨a, lastIn_cons.2 (.inr ⟨rfl, hname ▸ hlater⟩), hname⟩

/-- In a list that is in the order of the text, the last candidate of a name
stands behind every candidate of the name in part of the list. -/
theorem LastIn.start_le (h : d.LastIn cs') (hsub : cs.Sublist cs')
    (horder : cs'.Pairwise fun a b => a.start ≤ b.start) (hc : c ∈ cs) (hname : c.name = d.name) :
    c.start ≤ d.start := by
  obtain ⟨above, below, rfl, hbelow⟩ := h
  have hmem := hsub.subset hc
  simp only [List.mem_append, List.mem_cons] at hmem
  rcases hmem with habove | rfl | hlater
  · exact (List.pairwise_append.1 horder).2.2 c habove d List.mem_cons_self
  · exact Nat.le_refl _
  · exact absurd (List.mem_map.2 ⟨c, hlater, hname⟩) hbelow

end Candidate

namespace Session

/-- One more candidate takes the place of its name. -/
theorem Sound.mem_insert_iff {s : Session} (h : s.Sound) {c d : Candidate} :
    d ∈ (s.insert c).candidates ↔ d = c ∨ d ∈ s.candidates ∧ d.name ≠ c.name := by
  unfold Session.insert
  split
  · next i hi =>
    rw [h.index] at hi
    have hname : s.names[i]? = some c.name := by simpa using (lookup_zipIdx_some hi).2
    obtain ⟨old, hold, hsame⟩ := Option.map_eq_some_iff.1 (List.getElem?_map .. ▸ hname)
    obtain ⟨hlt, rfl⟩ := List.getElem?_eq_some_iff.1 hold
    have hsplit : s.candidates = s.candidates.take i ++ s.candidates[i] :: s.candidates.drop (i + 1) := by
      rw [← List.drop_eq_getElem_cons hlt, List.take_append_drop]
    have hnodup := h.nodup
    rw [names, hsplit, List.map_append, List.map_cons, hsame, List.nodup_middle, List.nodup_cons,
      ← List.map_append] at hnodup
    have hothers : ∀ e ∈ s.candidates.take i ++ s.candidates.drop (i + 1), e.name ≠ c.name :=
      fun e he heq => hnodup.1 (List.mem_map.2 ⟨e, he, heq⟩)
    rw [List.set_eq_take_append_cons_drop, if_pos hlt]
    constructor
    · intro hd
      rcases (List.perm_middle.mem_iff.trans List.mem_cons).1 hd with rfl | hd
      · exact .inl rfl
      · rw [hsplit]
        exact .inr ⟨List.perm_middle.mem_iff.2 (List.mem_cons_of_mem _ hd), hothers d hd⟩
    · intro hd
      refine (List.perm_middle.mem_iff.trans List.mem_cons).2 ?_
      rcases hd with hd | ⟨hd, hne⟩
      · exact .inl hd
      · rw [hsplit] at hd
        rcases (List.perm_middle.mem_iff.trans List.mem_cons).1 hd with rfl | hd
        · exact absurd hsame hne
        · exact .inr hd
  · next hi =>
    rw [h.index] at hi
    have hnot := lookup_zipIdx_none hi
    simp only [List.mem_append, List.mem_singleton]
    constructor
    · rintro (hd | rfl)
      · exact .inr ⟨hd, fun he => hnot (List.mem_map.2 ⟨d, hd, he⟩)⟩
      · exact .inl rfl
    · rintro (rfl | ⟨hd, -⟩)
      · exact .inr rfl
      · exact .inl hd

/-- Of the candidates put in, the last of each name is kept. -/
theorem Sound.mem_insertAll_iff {s : Session} (h : s.Sound) {cs : List Candidate} {d : Candidate} :
    d ∈ (cs.foldl Session.insert s).candidates ↔
      d.LastIn cs ∨ d ∈ s.candidates ∧ d.name ∉ cs.map (·.name) := by
  induction cs generalizing s with
  | nil => simp [Candidate.LastIn]
  | cons c cs ih =>
    rw [List.foldl_cons, ih (h.insert c), h.mem_insert_iff, Candidate.lastIn_cons, List.map_cons, List.mem_cons]
    tauto

end Session

/-! ## Candidates of a change -/

/-- The candidates among what a scan finds, whatever their names. -/
def Grammar.found (g : Grammar) (file : Path) (t : Text) (change : Option FileChange)
    (history : LineHistory) :
    List Candidate :=
  (g.findings file t change history).filterMap Finding.candidate?

section

variable {g : Grammar} {file : Path} {t : Text} {change : Option FileChange} {history : LineHistory}

/-- **A change leaves the candidates that it touches**, at the line that the
history leads to. -/
theorem Grammar.found_change (g : Grammar) (file : Path) (t : Text) (change : FileChange) (history : LineHistory) :
    g.found file t (some change) history =
      (g.found file t none history).filter fun c => change.touches (history.initialLine c.line) c.text := by
  simp only [found, findings_eq, List.filterMap_map, List.filter_filterMap]
  refine List.filterMap_congr fun p _ => Option.ext fun c => ?_
  simp only [Function.comp_apply, Option.filter_eq_some_iff, judge_candidate?, touched, true_and]
  constructor
  · rintro ⟨hdoc, howner, hname, htouched, rfl⟩
    exact ⟨⟨hdoc, howner, hname, rfl⟩, htouched⟩
  · rintro ⟨⟨hdoc, howner, hname, rfl⟩, htouched⟩
    exact ⟨hdoc, howner, hname, htouched, rfl⟩

theorem mem_found_change {change : FileChange} {c : Candidate} :
    c ∈ g.found file t (some change) history ↔
      c ∈ g.found file t none history ∧ change.touches (history.initialLine c.line) c.text = true := by
  rw [Grammar.found_change, List.mem_filter]

/-- Signatures start in the order of their matches. -/
theorem Grammar.signed_start_le : (g.signed t).Pairwise fun a b => a.2.start ≤ b.2.start := by
  by_cases hk : g.shape.kind = .header
  · -- All headers start where the text starts.
    refine List.pairwise_of_forall_mem_list fun a ha b hb => ?_
    have hstart : ∀ p ∈ g.signed t, p.2 = ⟨.start t, .start t⟩ := by
      intro p hp
      have hs := (mem_signed.1 hp).2
      simp only [signature?, hk, Option.some.injEq] at hs
      exact hs.symm
    exact Nat.le_of_eq (congrArg Span.start ((hstart a ha).trans (hstart b hb).symm))
  · refine (signed_pairwise hk).imp fun {a b} hab => ?_
    omega

/-- What is found stands in the order of the text. -/
theorem found_pairwise : (g.found file t change history).Pairwise fun a b => a.start ≤ b.start := by
  rw [Grammar.found, Grammar.findings_eq, List.filterMap_map, List.pairwise_filterMap]
  refine Grammar.signed_start_le.imp fun {p q} hpq a ha b hb => ?_
  obtain ⟨-, -, -, -, rfl⟩ := Grammar.judge_candidate?.1 ha
  obtain ⟨-, -, -, -, rfl⟩ := Grammar.judge_candidate?.1 hb
  exact hpq

theorem mem_candidates_iff {c : Candidate} :
    c ∈ (scanWith g file t change history).1.candidates ↔ c.LastIn (g.found file t change history) := by
  rw [scanWith, (Session.Sound.empty file g.shape.kind).mem_insertAll_iff]
  simp [Session.empty, Grammar.found]

theorem mem_names_iff {name : Text} :
    name ∈ (scanWith g file t change history).1.names ↔ name ∈ (g.found file t change history).map (·.name) := by
  constructor
  · intro h
    obtain ⟨c, hc, rfl⟩ := List.mem_map.1 h
    exact List.mem_map_of_mem (mem_candidates_iff.1 hc).mem
  · intro h
    obtain ⟨c, hc, rfl⟩ := Candidate.exists_lastIn h
    exact List.mem_map_of_mem (mem_candidates_iff.2 hc)

theorem FileChange.touches_iff {change : FileChange} {line : Nat} {text : Text} :
    change.touches line text = true ↔
      ∃ hunk ∈ change.hunks, hunk.first ≤ line ∧ line ≤ hunk.last ∧ ∃ head tail, hunk.text = head ++ (text ++ tail) := by
  simp [touches, Hunk.covers, Text.holds_iff, and_assoc]

/-- A part of a change leaves fewer candidates, and every change leaves fewer
than there are. -/
theorem found_sublist (g : Grammar) (file : Path) (t : Text) (history : LineHistory) {part whole : FileChange}
    (h : ∀ hunk ∈ part.hunks, hunk ∈ whole.hunks) :
    (g.found file t (some part) history).Sublist (g.found file t (some whole) history) ∧
      (g.found file t (some whole) history).Sublist (g.found file t none history) := by
  rw [Grammar.found_change, Grammar.found_change g file t whole]
  refine ⟨List.monotone_filter_right _ fun c => ?_, List.filter_sublist⟩
  intro hc
  obtain ⟨hunk, hhunk, hin⟩ := FileChange.touches_iff.1 hc
  exact FileChange.touches_iff.2 ⟨hunk, h hunk hhunk, hin⟩

end

/-- **Scanning for a part of a change.** Every name it keeps is kept for the
whole change and without any, and the construct that stands for the name can
only move down the text. What is kept is what an undocumented construct that
owns its line has in common with a region of the change. -/
theorem scan_change_mono (g : Grammar) (file : Path) (t : Text) {part whole : FileChange}
    (h : ∀ hunk ∈ part.hunks, hunk ∈ whole.hunks) :
    (∀ name ∈ (scan g file t (some part)).1.names,
      name ∈ (scan g file t (some whole)).1.names ∧ name ∈ (scan g file t none).1.names) ∧
    (∀ c ∈ (scan g file t (some part)).1.candidates, ∀ d ∈ (scan g file t (some whole)).1.candidates,
      ∀ e ∈ (scan g file t none).1.candidates, c.name = d.name → d.name = e.name →
        c.start ≤ d.start ∧ d.start ≤ e.start) ∧
    (∀ change : Option FileChange, (scan g file t change).1.names.Nodup) ∧
    (∀ c ∈ (scan g file t (some part)).1.candidates, ∃ hunk ∈ part.hunks, hunk.first ≤ c.line ∧ c.line ≤ hunk.last ∧
      ∃ head tail, hunk.text = head ++ (c.text ++ tail)) ∧
    ∀ name, name ∈ (scan g file t (some part)).1.names ↔
      ∃ m ∈ g.pattern.allMatches t, ∃ s, g.signature? t m = some s ∧ g.nameOf file m = name ∧
        m.group? g.documentedGroup = none ∧ g.ownerIn t (t.lineOf (g.anchorOf s)) = some s.start ∧
        name ∉ g.shape.ignore ∧ part.touches (t.lineOf s.start) s.text = true := by
  obtain ⟨hpart, hwhole⟩ := found_sublist g file t {} h
  refine ⟨fun name hname => ?_, fun c hc d hd e he hcd hde => ?_, fun change => ?_, fun c hc => ?_, fun name => ?_⟩
  · have hfound := mem_names_iff.1 hname
    exact ⟨mem_names_iff.2 ((hpart.map _).subset hfound), mem_names_iff.2 (((hpart.trans hwhole).map _).subset hfound)⟩
  · have hlastd := mem_candidates_iff.1 hd
    have hlaste := mem_candidates_iff.1 he
    exact ⟨hlastd.start_le hpart found_pairwise (mem_candidates_iff.1 hc).mem hcd,
      hlaste.start_le hwhole found_pairwise hlastd.mem hde⟩
  · exact (scanWith_sound g file t change {}).nodup
  · exact FileChange.touches_iff.1 (mem_found_change.1 (mem_candidates_iff.1 hc).mem).2
  · rw [scan, mem_names_iff, List.mem_map]
    simp only [Grammar.found, mem_found, Grammar.touched, Grammar.mem_signed, Option.isSome_eq_false_iff,
      Option.isNone_iff_eq_none]
    constructor
    · rintro ⟨c, ⟨m, s, ⟨hm, hs⟩, hdoc, howner, hignore, htouched, rfl⟩, rfl⟩
      have hnot : g.nameOf file m ∉ g.shape.ignore := by simpa using hignore
      exact ⟨m, hm, s, hs, rfl, hdoc, howner, hnot, htouched⟩
    · rintro ⟨m, hm, s, hs, rfl, hdoc, howner, hignore, htouched⟩
      exact ⟨_, ⟨m, s, ⟨hm, hs⟩, hdoc, howner, by simpa using hignore, htouched, rfl⟩, rfl⟩

/-! A function that is written twice. A change to the first keeps the first;
together with a change to the second, the second stands for the name. -/

namespace WrittenTwice

def text : Text := "def f(a):\n    pass\n\ndef f(b):\n    pass\n"

def file : Path := ⟨"a.py"⟩

def upper : FileChange := ⟨file, [⟨1, 1, "def f(a):"⟩]⟩

def both : FileChange := ⟨file, [⟨1, 1, "def f(a):"⟩, ⟨4, 4, "def f(b):"⟩]⟩

/-- Where the candidates of a scan start. -/
def starts (change : Option FileChange) : List Nat :=
  (scan Python.methodGrammar file text change).1.candidates.map (·.start)

set_option maxRecDepth 100000 in
theorem starts_eq : starts (some upper) = [0] ∧ starts (some both) = [20] ∧ starts none = [20] := by
  decide

theorem scan_change_mono_upper :
    (∀ hunk ∈ upper.hunks, hunk ∈ both.hunks) ∧
      starts (some upper) = [0] ∧ starts (some both) = [20] ∧ starts none = [20] ∧
      ∀ c ∈ (scan Python.methodGrammar file text (some upper)).1.candidates,
        c.name ∈ (scan Python.methodGrammar file text (some both)).1.names ∧
          ∃ hunk ∈ upper.hunks, hunk.first ≤ c.line ∧ c.line ≤ hunk.last := by
  have hhunks : ∀ hunk ∈ upper.hunks, hunk ∈ both.hunks := by decide
  obtain ⟨hnames, -, -, htouched, -⟩ := scan_change_mono Python.methodGrammar file text hhunks
  refine ⟨hhunks, starts_eq.1, starts_eq.2.1, starts_eq.2.2, fun c hc => ?_⟩
  obtain ⟨hunk, hhunk, hfirst, hlast, -⟩ := htouched c hc
  exact ⟨(hnames c.name (List.mem_map_of_mem hc)).1, hunk, hhunk, hfirst, hlast⟩

end WrittenTwice

end DocScribe
