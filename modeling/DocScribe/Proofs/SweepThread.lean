/-
Sweeping a text into which docstrings were put.

`thread` puts texts in by what follows: `ins u` goes in front of the part `u`
of a text. When what is put in is a docstring at the end of a line that a
signature ends on, the sweep of the new text takes the same signatures as that
of the old one (`Form.Passes.thread`). Two things can go wrong, and each is a
condition on the places where texts go in: one may lie inside a signature, or
what would not have been a signature becomes one (`Firm`); and what is put in
may part a signature from its own docstring (`Gapped`).
-/
import DocScribe.Proofs.Sweep

namespace DocScribe

/-- A text with `ins u` put in front of every part `u` that ends it. -/
def thread (ins : Text → Text) : Text → Text
  | [] => ins []
  | c :: t => ins (c :: t) ++ c :: thread ins t

/-- The same with nothing in front of the whole. -/
def threadTail (ins : Text → Text) : Text → Text
  | [] => []
  | c :: t => c :: thread ins t

section thread
variable {ins : Text → Text}

theorem thread_eq (ins : Text → Text) (u : Text) : thread ins u = ins u ++ threadTail ins u := by
  cases u with
  | nil => simp [thread, threadTail]
  | cons c t => rfl

/-- Where nothing is put in, the text stays as it is. -/
theorem thread_append {a b : Text} (h : ∀ r R, a = r ++ R → R ≠ [] → ins (R ++ b) = []) :
    thread ins (a ++ b) = a ++ thread ins b := by
  induction a with
  | nil => rfl
  | cons c a ih =>
    have hhere := h [] (c :: a) rfl (by simp)
    rw [List.cons_append] at hhere
    rw [List.cons_append, thread, hhere, ih fun r R hr hR => h (c :: r) R (by rw [hr]; rfl) hR]
    rfl

theorem threadTail_append {a b : Text} (ha : a ≠ [])
    (h : ∀ r R, a = r ++ R → r ≠ [] → R ≠ [] → ins (R ++ b) = []) :
    threadTail ins (a ++ b) = a ++ thread ins b := by
  cases a with
  | nil => exact absurd rfl ha
  | cons c a =>
    rw [List.cons_append, threadTail,
      thread_append fun r R hr hR => h (c :: r) R (by rw [hr]; rfl) (by simp) hR]
    rfl

/-- What starts a threaded text starts the text itself, or goes beyond the
first place where something is put in. -/
theorem of_threadTail_eq {u w rest : Text} (h : threadTail ins u = w ++ rest) :
    (∃ R, u = w ++ R) ∨
      ∃ r R w', u = r ++ R ∧ r ≠ [] ∧ ins R ≠ [] ∧ w' ≠ [] ∧ w = r ++ w' ∧ w' ++ rest = thread ins R := by
  induction u generalizing w with
  | nil =>
    obtain ⟨rfl, -⟩ := List.append_eq_nil_iff.1 h.symm
    exact .inl ⟨[], rfl⟩
  | cons c u ih =>
    cases w with
    | nil => exact .inl ⟨c :: u, rfl⟩
    | cons d w =>
      rw [threadTail, List.cons_append, List.cons.injEq] at h
      obtain ⟨rfl, h⟩ := h
      by_cases hins : ins u = []
      · rw [thread_eq, hins, List.nil_append] at h
        rcases ih h with ⟨R, rfl⟩ | ⟨r, R, w', rfl, hr, hR, hw', rfl, hrest⟩
        · exact .inl ⟨R, rfl⟩
        · exact .inr ⟨c :: r, R, w', rfl, by simp, hR, hw', rfl, hrest⟩
      · cases w with
        | nil => exact .inl ⟨u, rfl⟩
        | cons e w => exact .inr ⟨[c], u, e :: w, rfl, by simp, hins, by simp, rfl, h.symm⟩

end thread

/-! ## Places -/

/-- The first part of a text is its first line, with its line feed if it has
one. -/
def FirstLine (r R : Text) : Prop := (∃ s, r = s ++ ['\n'] ∧ '\n' ∉ s) ∨ '\n' ∉ r ∧ R = []

/-- A line is over: the text is, or a line ending starts it. -/
def LineEnd (t : Text) : Prop := t = [] ∨ ∃ rest, t = '\n' :: rest ∨ t = '\r' :: '\n' :: rest

theorem LineEnd.blank {c : Char} {t : Text} (h : LineEnd (c :: t)) : isBlank c = true := by
  rcases h with h | ⟨rest, h | h⟩
  · cases h
  · cases h
    rfl
  · cases h
    rfl

theorem FirstLine.unique {r R r' R' : Text} (h : FirstLine r R) (h' : FirstLine r' R')
    (heq : r ++ R = r' ++ R') :
    r = r' ∧ R = R' := by
  rcases h with ⟨s, rfl, hs⟩ | ⟨hs, rfl⟩ <;> rcases h' with ⟨s', rfl, hs'⟩ | ⟨hs', rfl⟩
  · have hline := congrArg (List.takeWhile (· != '\n')) heq
    rw [List.append_assoc, List.append_assoc, List.singleton_append, List.singleton_append,
      Text.takeWhile_ne_feed_append hs, Text.takeWhile_ne_feed_append hs'] at hline
    subst hline
    exact ⟨rfl, List.append_cancel_left heq⟩
  · exact absurd (by rw [← List.append_nil r', ← heq]; simp) hs'
  · exact absurd (by rw [← List.append_nil r, heq]; simp) hs
  · rw [List.append_nil, List.append_nil] at heq
    exact ⟨heq, rfl⟩

variable (F : Form) (ins : Text → Text)

/-- Nothing is put in where a signature from the start of a text would go
on. -/
def Firm (u : Text) : Prop :=
  ∀ r R, u = r ++ R → r ≠ [] → ins R ≠ [] → ∀ w, w ≠ [] → ¬F.Sig (r ++ w)

/-- Texts are put in at the starts of lines only, or at the end of the text
with a line ending in front. -/
def LineCuts (u : Text) : Prop :=
  ∀ r R, u = r ++ R → r ≠ [] → ins R ≠ [] → (∃ s, r = s ++ ['\n']) ∨ R = [] ∧ LineEnd (ins [])

/-- In the gap behind a signature texts are put in at most at the end of the
first line, and only when no docstring was there. -/
def Gapped (y : Text) : Prop :=
  ∀ r R, y = r ++ R → r.length ≤ (gap y).length → ins R ≠ [] → FirstLine r R ∧ opened y = false

/-- Everything that is put in is a docstring, blanks apart, and no signature
starts inside. -/
structure Docstrings : Prop where
  opens : ∀ u, ins u ≠ [] → ∃ b rest, Blank b ∧ ins u = b ++ (quotes ++ rest)
  quiet : ∀ u a b rest, ins u = a ++ b → b ≠ [] → F.Quiet (b ++ rest)

variable {F ins}

theorem LineCuts.suffix {a u : Text} (h : LineCuts ins (a ++ u)) : LineCuts ins u := by
  intro r R hr hne hins
  rcases h (a ++ r) R (by rw [hr, List.append_assoc]) (by simp [hne]) hins with ⟨s, hs⟩ | hend
  · have hends : Text.EndsLine r := Text.EndsLine.of_append (a := a) (.inr ⟨s, hs⟩)
    rcases hends with rfl | hends
    · exact absurd rfl hne
    · exact .inl hends
  · exact .inr hend

theorem quiet_threadTail {u : Text} (hquiet : F.Quiet u) (hfirm : Firm F ins u) :
    F.Quiet (threadTail ins u) := by
  intro x y h hx
  rcases of_threadTail_eq h with ⟨R, hR⟩ | ⟨r, R, w, hu, hr, hins, hw, rfl, -⟩
  · exact hquiet x R hR hx
  · exact hfirm r R hu hr hins w hw hx

theorem passes_of_quiet {s t u : Text} {l : List (Text × Text)}
    (hquiet : ∀ a b, s = a ++ b → b ≠ [] → F.Quiet (b ++ t)) (h : F.Passes t l u) :
    F.Passes (s ++ t) l u := by
  induction s with
  | nil => exact h
  | cons c s ih =>
    refine .skip (hquiet [] (c :: s) rfl (by simp)) (ih fun a b hab hb => hquiet (c :: a) b ?_ hb)
    rw [hab]
    rfl

/-! ## The gap behind a signature -/

theorem append_of_length_le {a b x y : Text} (h : a ++ x = b ++ y) (hle : a.length ≤ b.length) :
    ∃ s, b = a ++ s ∧ x = s ++ y := by
  obtain ⟨s, rfl, rfl⟩ | ⟨s, rfl, rfl⟩ := List.append_eq_append_iff.1 h
  · exact ⟨s, rfl, rfl⟩
  · have hnil : s = [] := List.eq_nil_of_length_eq_zero (by simp only [List.length_append] at hle; omega)
    subst hnil
    exact ⟨[], by simp, by simp⟩

theorem thread_of_gap_empty {y : Text} (hnone : ∀ r R, y = r ++ R → r.length ≤ (gap y).length → ins R = []) :
    thread ins y = gap y ++ threadTail ins (past y) := by
  have hthread : thread ins (gap y ++ past y) = gap y ++ thread ins (past y) :=
    thread_append fun r R hr hR => hnone r (R ++ past y)
      (by rw [← List.append_assoc, ← hr, gap_append_past]) (by rw [hr, List.length_append]; omega)
  rw [gap_append_past, thread_eq ins (past y),
    hnone (gap y) (past y) (gap_append_past y).symm (Nat.le_refl _), List.nil_append] at hthread
  exact hthread

/-- There is one first line, hence one place in the gap. -/
theorem Gapped.only {y r R : Text} (hgap : Gapped ins y) (hy : y = r ++ R) (hle : r.length ≤ (gap y).length)
    (hins : ins R ≠ []) {r' R' : Text} (hy' : y = r' ++ R') (hle' : r'.length ≤ (gap y).length)
    (hne : r' ≠ r) :
    ins R' = [] := by
  by_cases hins' : ins R' = []
  · exact hins'
  · obtain ⟨hline, -⟩ := hgap r R hy hle hins
    obtain ⟨hline', -⟩ := hgap r' R' hy' hle' hins'
    exact absurd (hline'.unique hline (hy'.symm.trans hy)).1 hne

theorem thread_of_gap_place {y r R : Text} (hgap : Gapped ins y) (hy : y = r ++ R)
    (hle : r.length ≤ (gap y).length) (hins : ins R ≠ []) :
    ∃ s, opened y = false ∧ Blank r ∧ Blank s ∧ thread ins y = r ++ (ins R ++ (s ++ threadTail ins (past y))) := by
  obtain ⟨-, hclosed⟩ := hgap r R hy hle hins
  obtain ⟨s, hs, hR⟩ := append_of_length_le (hy.symm.trans (gap_append_past y).symm) hle
  have hblank : Blank (r ++ s) := by
    rw [← hs, gap_of_not_opened hclosed]
    exact blank_takeWhile y
  have hlen : (gap y).length = r.length + s.length := by rw [hs, List.length_append]
  have hfront : thread ins (r ++ R) = r ++ thread ins R := thread_append fun r₁ r₂ hr hr₂ =>
    hgap.only hy hle hins (by rw [hy, hr, List.append_assoc]) (by rw [hlen, hr, List.length_append]; omega)
      fun heq => hr₂ (by rw [heq] at hr; simpa using hr)
  have hback : threadTail ins R = s ++ threadTail ins (past y) := by
    cases s with
    | nil => rw [hR]; rfl
    | cons c s =>
      have hlater : ∀ s₁ s₂, c :: s = s₁ ++ s₂ → s₁ ≠ [] → ins (s₂ ++ past y) = [] := by
        intro s₁ s₂ hs₁ hne
        have hy' : y = (r ++ s₁) ++ (s₂ ++ past y) :=
          hy.trans (by rw [hR, hs₁, List.append_assoc, List.append_assoc])
        refine hgap.only hy hle hins hy' ?_ fun heq => hne (by simpa using heq)
        rw [hlen, hs₁, List.length_append, List.length_append]
        omega
      rw [hR, threadTail_append (by simp) fun s₁ s₂ hs₁ hne _ => hlater s₁ s₂ hs₁ hne, thread_eq ins (past y)]
      have hend := hlater (c :: s) [] (by simp) (by simp)
      rw [List.nil_append] at hend
      rw [hend, List.nil_append]
  refine ⟨s, hclosed, (blank_append.1 hblank).1, (blank_append.1 hblank).2, ?_⟩
  rw [← hback, ← thread_eq ins R, ← hfront, ← hy]

/-- Nothing is put into the gap behind a signature, or one docstring at the
end of its first line. -/
theorem thread_gap {y : Text} (hgap : Gapped ins y) :
    ((∀ r R, y = r ++ R → r.length ≤ (gap y).length → ins R = []) ∧
        thread ins y = gap y ++ threadTail ins (past y)) ∨
      ∃ r R s, y = r ++ R ∧ r.length ≤ (gap y).length ∧ ins R ≠ [] ∧ opened y = false ∧ Blank r ∧ Blank s ∧
        thread ins y = r ++ (ins R ++ (s ++ threadTail ins (past y))) := by
  by_cases hnone : ∀ r R, y = r ++ R → r.length ≤ (gap y).length → ins R = []
  · exact .inl ⟨hnone, thread_of_gap_empty hnone⟩
  · simp only [Classical.not_forall] at hnone
    obtain ⟨r, R, hy, hle, hins⟩ := hnone
    obtain ⟨s, hplace⟩ := thread_of_gap_place hgap hy hle hins
    exact .inr ⟨r, R, s, hy, hle, hins, hplace⟩

/-- A text that no docstring opens is not opened by what is put in further
on. -/
theorem not_opened_threadTail {z : Text} (hlines : LineCuts ins z)
    (hz : z = [] ∨ ∃ c rest, z = c :: rest ∧ isBlank c = false) (hclosed : Text.startsWith z quotes = false) :
    opened (threadTail ins z) = false ∧ past (threadTail ins z) = threadTail ins z := by
  have hdrop : (threadTail ins z).dropWhile isBlank = threadTail ins z := by
    rcases hz with rfl | ⟨c, rest, rfl, hc⟩
    · rfl
    · rw [threadTail, List.dropWhile_cons_of_neg (by simp [hc])]
  have hopened : opened (threadTail ins z) = false := by
    rw [opened, hdrop, Bool.eq_false_iff]
    intro hstart
    obtain ⟨rest, hrest⟩ := Text.startsWith_iff.1 hstart
    rcases of_threadTail_eq hrest with ⟨R, hR⟩ | ⟨r, R, w, hr, hne, hins, hw, hq, hthread⟩
    · rw [Text.startsWith_iff.2 ⟨R, hR⟩] at hclosed
      cases hclosed
    · -- A place between two quotes is neither behind a line feed nor in front of a blank.
      have hquote : ∀ c ∈ r ++ w, c = '"' := by
        rw [← hq]
        simp [quotes]
      rcases hlines r R hr hne hins with ⟨s, hs⟩ | ⟨rfl, hend⟩
      · exact absurd (hquote '\n' (by rw [hs]; simp)) (by decide)
      · cases w with
        | nil => exact absurd rfl hw
        | cons d w =>
          rw [show DocScribe.thread ins [] = ins [] from rfl] at hthread
          rw [← hthread] at hend
          have := LineEnd.blank hend
          rw [hquote d (by simp)] at this
          cases this
  exact ⟨hopened, by rw [past, hopened]; exact hdrop⟩

theorem dropWhile_blank_cases (y : Text) :
    y.dropWhile isBlank = [] ∨ ∃ c rest, y.dropWhile isBlank = c :: rest ∧ isBlank c = false := by
  induction y with
  | nil => exact .inl rfl
  | cons c y ih =>
    cases hc : isBlank c with
    | true => rwa [List.dropWhile_cons_of_pos hc]
    | false => exact .inr ⟨c, y, by rw [List.dropWhile_cons_of_neg (by simp [hc])], hc⟩

/-- Whether a docstring opens the text behind a signature once texts are put
in, and where the sweep goes on. -/
theorem past_thread {y : Text} (hdoc : Docstrings F ins) (hgap : Gapped ins y)
    (hlines : LineCuts ins (past y)) :
    (opened (thread ins y) = true ↔
        opened y = true ∨ ∃ r R, y = r ++ R ∧ r.length ≤ (gap y).length ∧ ins R ≠ []) ∧
      ∃ s, past (thread ins y) = s ++ threadTail ins (past y) ∧
        ∀ a b, s = a ++ b → b ≠ [] → F.Quiet (b ++ threadTail ins (past y)) := by
  rcases thread_gap hgap with ⟨hnone, hthread⟩ | ⟨r, R, s, hy, hle, hins, hclosed, hr, hs, hthread⟩
  · have hno : ¬∃ r R, y = r ++ R ∧ r.length ≤ (gap y).length ∧ ins R ≠ [] := by
      rintro ⟨r, R, hy, hle, hins⟩
      exact hins (hnone r R hy hle)
    simp only [hno, or_false, hthread]
    cases hopened : opened y with
    | true =>
      obtain ⟨rest, hrest⟩ := Text.startsWith_iff.1 hopened
      have hgap' : gap y ++ threadTail ins (past y) =
          y.takeWhile isBlank ++ (quotes ++ threadTail ins (past y)) := by
        simp only [gap, hopened, if_true, List.append_assoc]
      rw [hgap', past_blank_quotes (blank_takeWhile y)]
      exact ⟨iff_of_true (opened_iff.2 ⟨_, _, blank_takeWhile y, rfl⟩) rfl, [], rfl, by simp⟩
    | false =>
      have hblank : Blank (gap y) := by
        rw [gap_of_not_opened hopened]
        exact blank_takeWhile y
      have hpast : past y = y.dropWhile isBlank := by simp [past, hopened]
      obtain ⟨h1, h2⟩ := not_opened_threadTail hlines
        (by rw [hpast]; exact dropWhile_blank_cases y) (by rw [hpast]; exact hopened)
      rw [opened_blank_append hblank, past_blank_append hblank, h1, h2]
      exact ⟨Iff.rfl, [], rfl, by simp⟩
  · obtain ⟨b, rest, hb, hblock⟩ := hdoc.opens R hins
    have hshape : thread ins y = (r ++ b) ++ (quotes ++ (rest ++ (s ++ threadTail ins (past y)))) := by
      rw [hthread, hblock]
      simp only [List.append_assoc]
    have hopened : opened (thread ins y) = true := opened_iff.2 ⟨r ++ b, _, blank_append.2 ⟨hr, hb⟩, hshape⟩
    refine ⟨⟨fun _ => .inr ⟨r, R, hy, hle, hins⟩, fun _ => hopened⟩, rest ++ s, ?_, ?_⟩
    · rw [hshape, past_blank_quotes (blank_append.2 ⟨hr, hb⟩), List.append_assoc]
    · intro a₁ b₁ hab hne
      have hblank : ∀ b₂, Blank b₂ → b₂ ≠ [] → F.Quiet (b₂ ++ threadTail ins (past y)) := by
        intro b₂ hb₂ hne₂
        cases b₂ with
        | nil => exact absurd rfl hne₂
        | cons c b₂ => exact .blank (hb₂ c List.mem_cons_self) _
      obtain ⟨c, rfl, rfl⟩ | ⟨c, hc, rfl⟩ := List.append_eq_append_iff.1 hab
      · exact hblank b₁ (blank_append.1 hs).2 hne
      · by_cases hnil : c = []
        · subst hnil
          exact hblank _ hs hne
        · rw [List.append_assoc]
          refine hdoc.quiet R (b ++ (quotes ++ a₁)) c _ ?_ hnil
          rw [hblock, hc]
          simp only [List.append_assoc]

/-! ## The sweep of a threaded text -/

/-- An invariant of a sweep, over the text and the signatures that are left
(those to be taken, and the others), that makes it safe to put texts in. -/
structure Safe (F : Form) (ins : Text → Text)
    (I : Text → List (Text × Text) → List (Text × Text) → Prop) : Prop where
  firm : ∀ u l l', I u l l' → Firm F ins u
  skip : ∀ c t l l', F.Quiet (c :: t) → I (c :: t) l l' → I t l l'
  take : ∀ x y l l', F.Sig x → I (x ++ y) ((x, y) :: l) l' → Gapped ins y ∧ I (past y) l l'

theorem Firm.threadTail_sig {x y : Text} (hfirm : Firm F ins (x ++ y)) (hx : F.Sig x) :
    threadTail ins (x ++ y) = x ++ thread ins y := by
  refine threadTail_append (Form.ne_nil hx) fun r R hr hne hR => ?_
  by_cases hins : ins (R ++ y) = []
  · exact hins
  · exact absurd (hr ▸ hx) (hfirm r (R ++ y) (by rw [hr, List.append_assoc]) hne hins R hR)

/-- **A threaded text is swept like the text itself.** -/
theorem Form.Passes.thread {I : Text → List (Text × Text) → List (Text × Text) → Prop}
    (hdoc : Docstrings F ins)
    (hsafe : Safe F ins I) {t u : Text} {l : List (Text × Text)} (l' : List (Text × Text))
    (h : F.Passes t l u) (hlines : LineCuts ins t) (hI : I t l l') :
    (I u [] l' ∧ ∀ p ∈ l, Gapped ins p.2) ∧
      F.Passes (threadTail ins t) (l.map fun p => (p.1, DocScribe.thread ins p.2)) (threadTail ins u) := by
  induction h with
  | done t => exact ⟨⟨hI, by simp⟩, .done _⟩
  | @skip c t u l hquiet _ ih =>
    obtain ⟨hu, hpasses⟩ := ih (hlines.suffix (a := [c])) (hsafe.skip c t l l' hquiet hI)
    refine ⟨hu, ?_⟩
    have hquiet' := quiet_threadTail hquiet (hsafe.firm _ _ _ hI)
    rw [threadTail] at hquiet' ⊢
    rw [thread_eq] at hquiet' ⊢
    exact .skip hquiet' (passes_of_quiet (fun a b hab hb => hdoc.quiet t a b _ hab hb) hpasses)
  | @take x y u l hx _ ih =>
    obtain ⟨hgap, hrest⟩ := hsafe.take x y l l' hx hI
    have hpast : LineCuts ins (past y) := by
      rw [← gap_append_past y] at hlines
      exact hlines.suffix.suffix
    obtain ⟨⟨hu, hgaps⟩, hpasses⟩ := ih hpast hrest
    refine ⟨⟨hu, ?_⟩, ?_⟩
    · intro p hp
      rcases List.mem_cons.1 hp with rfl | hp
      · exact hgap
      · exact hgaps p hp
    obtain ⟨-, s, hs, hquiet⟩ := past_thread hdoc hgap hpast
    rw [(hsafe.firm _ _ _ hI).threadTail_sig hx]
    refine .take hx ?_
    rw [hs]
    exact passes_of_quiet hquiet hpasses

end DocScribe
