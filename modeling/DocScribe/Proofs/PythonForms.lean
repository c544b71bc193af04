/-
The signatures of classes and methods in Python, as texts.

`ClassSig` and `MethodSig` say which texts they are without mentioning a
pattern. Each ends with the first colon that can end it, so both make a form
(`classForm`, `methodForm`). No signature of a class goes on behind the line
of a signature of a method (`not_classSig_of_method`).
-/
import DocScribe.Proofs.SweepSettled
import Mathlib.Data.List.Basic

namespace DocScribe

/-! ## Where a character stands -/

/-- Behind the first place of a character comes every other. -/
theorem append_of_first {c : Char} {p W m R : Text} (hp : c ∉ p) (h : p ++ c :: W = m ++ c :: R) :
    ∃ k, W = k ++ R := by
  rcases List.append_eq_append_iff.1 h with ⟨k, -, hk⟩ | ⟨k, rfl, hk⟩
  · cases k with
    | nil =>
      rw [List.nil_append, List.cons.injEq] at hk
      exact ⟨[], hk.2⟩
    | cons d k =>
      rw [List.cons_append, List.cons.injEq] at hk
      exact ⟨k ++ [c], by rw [hk.2]; simp⟩
  · cases k with
    | nil =>
      rw [List.nil_append, List.cons.injEq] at hk
      exact ⟨[], hk.2.symm⟩
    | cons d k =>
      rw [List.cons_append, List.cons.injEq] at hk
      exact absurd (by rw [hk.1]; simp) hp

theorem eq_of_first {c : Char} {a b x y : Text} (ha : c ∉ a) (hb : c ∉ b) (h : a ++ c :: x = b ++ c :: y) :
    a = b := by
  obtain ⟨k, rfl⟩ := append_of_first ha h
  obtain ⟨k', hk'⟩ := append_of_first hb h.symm
  have hlen := congrArg List.length hk'
  simp only [List.length_append] at hlen
  obtain rfl : k = [] := List.eq_nil_of_length_eq_zero (by omega)
  exact List.append_cancel_right h

/-- The last character of a text that is not blank. -/
theorem append_blank_unique {c d : Char} {a b a' b' : Text} (hc : isBlank c = false) (hd : isBlank d = false)
    (hb : Blank b) (hb' : Blank b') (h : a ++ c :: b = a' ++ d :: b') : a = a' ∧ c = d ∧ b = b' := by
  rcases List.append_eq_append_iff.1 h with ⟨k, rfl, hk⟩ | ⟨k, rfl, hk⟩
  · cases k with
    | nil =>
      rw [List.nil_append, List.cons.injEq] at hk
      exact ⟨(List.append_nil a).symm, hk.1, hk.2⟩
    | cons e k =>
      rw [List.cons_append, List.cons.injEq] at hk
      rw [hb d (by rw [hk.2]; simp)] at hd
      cases hd
  · cases k with
    | nil =>
      rw [List.nil_append, List.cons.injEq] at hk
      exact ⟨List.append_nil a', hk.1.symm, hk.2.symm⟩
    | cons e k =>
      rw [List.cons_append, List.cons.injEq] at hk
      rw [hb' c (by rw [hk.2]; simp)] at hc
      cases hc

/-- How many characters of a text are not blank. -/
def marks (t : Text) : Nat := t.countP fun c => !isBlank c

theorem marks_append (a b : Text) : marks (a ++ b) = marks a + marks b := List.countP_append

theorem marks_cons {c : Char} (hc : isBlank c = false) (t : Text) : marks (c :: t) = marks t + 1 :=
  List.countP_cons_of_pos (by simp [hc])

theorem marks_eq_zero {t : Text} (h : Blank t) : marks t = 0 :=
  List.countP_eq_zero.2 fun c hc => by simp [h c hc]

namespace Python

def classWord : Text := ['c', 'l', 'a', 's', 's']

def defWord : Text := ['d', 'e', 'f']

/-! ## Classes -/

/-- What comes between the name of a class and the colon: nothing, or the
ancestors behind a parenthesis. -/
def Ancestry (anc : Text) : Prop := anc = [] ∨ ∃ v, anc = '(' :: v ∧ ':' ∉ v

/-- A character of the name of a class behind the first. -/
def NameChar (c : Char) : Prop := isBlank c = false ∧ c ≠ '(' ∧ c ≠ ':'

/-- The signature of a class: the word, blanks, the name, which has at least
one character, blanks, the ancestors if there are any, and a colon. -/
def ClassSig (x : Text) : Prop :=
  ∃ ws n ns g anc, x = classWord ++ (ws ++ n :: (ns ++ (g ++ (anc ++ [':'])))) ∧ ws ≠ [] ∧ Blank ws ∧
    isBlank n = false ∧ (∀ c ∈ ns, NameChar c) ∧ Blank g ∧ Ancestry anc

theorem Ancestry.colon {anc : Text} (h : Ancestry anc) : ':' ∉ anc := by
  rcases h with rfl | ⟨v, rfl, hv⟩
  · simp
  · simp [hv]

theorem not_mem_blank {c : Char} {t : Text} (hc : isBlank c = false) (ht : Blank t) : c ∉ t := by
  intro h
  rw [ht c h] at hc
  cases hc

/-- Only the first character of the name and the last of the signature can be
colons. -/
theorem ClassSig.colons {x : Text} (h : ClassSig x) :
    ∃ ws n s, x = (classWord ++ ws) ++ n :: (s ++ [':']) ∧ ws ≠ [] ∧ Blank ws ∧ isBlank n = false ∧ ':' ∉ s := by
  obtain ⟨ws, n, ns, g, anc, rfl, hne, hws, hn, hns, hg, hanc⟩ := h
  refine ⟨ws, n, ns ++ (g ++ anc), by simp, hne, hws, hn, ?_⟩
  simp only [List.mem_append, not_or]
  exact ⟨fun hmem => (hns ':' hmem).2.2 rfl, not_mem_blank (by decide) hg, hanc.colon⟩

theorem colon_not_mem_class {ws : Text} (hws : Blank ws) : ':' ∉ classWord ++ ws := by
  simp only [List.mem_append, not_or]
  exact ⟨by decide, not_mem_blank (by decide) hws⟩

theorem ClassSig.stop {x : Text} (h : ClassSig x) : ∃ head, x = head ++ [':'] := by
  obtain ⟨ws, n, s, rfl, -⟩ := h.colons
  exact ⟨(classWord ++ ws) ++ n :: s, by simp⟩

theorem ClassSig.first_end {x y a x' y' : Text} (h : ClassSig x) (h' : ClassSig x')
    (heq : x ++ y = a ++ (x' ++ y')) :
    x.length ≤ a.length + x'.length := by
  refine Nat.le_of_not_lt fun hlt => ?_
  rw [← List.length_append] at hlt
  obtain ⟨z, hx, -⟩ := append_of_length_le ((List.append_assoc ..).trans heq.symm) (Nat.le_of_lt hlt)
  obtain ⟨ws, n, s, rfl, -, hws, hn, hs⟩ := h.colons
  obtain ⟨ws', n', s', rfl, -, hws', hn', -⟩ := h'.colons
  rcases List.eq_nil_or_concat z with rfl | ⟨z, last, rfl⟩
  · rw [List.append_nil] at hx
    rw [hx] at hlt
    omega
  -- The colon of the second signature would be the name of the first.
  have hinit : (a ++ ((classWord ++ ws') ++ n' :: s')) ++ ':' :: z = (classWord ++ ws) ++ n :: s := by
    have hsplit : ((classWord ++ ws) ++ n :: s) ++ [':'] =
        ((a ++ ((classWord ++ ws') ++ n' :: s')) ++ ':' :: z) ++ [last] := by
      simpa using hx
    exact (List.append_inj' hsplit rfl).1.symm
  obtain ⟨hword, -, -⟩ := (List.append_cons_inj_of_notMem (colon_not_mem_class hws) hs).1 hinit.symm
  have hmarks := congrArg marks hword
  rw [marks_append, marks_append, marks_append, marks_cons hn', marks_append, marks_eq_zero hws,
    marks_eq_zero hws'] at hmarks
  omega

/-- The form of the signatures of classes. -/
def classForm : Form where
  Sig := ClassSig
  start := by
    rintro x ⟨ws, n, ns, g, anc, rfl, -⟩
    exact ⟨'c', _, rfl, by decide⟩
  stop _ h := h.stop
  first_end _ _ _ _ _ h h' := h.first_end h'

/-! ## Methods -/

/-- A text that ends with its first closing parenthesis that blanks and a
colon follow. -/
def Closes (w : Text) : Prop :=
  (∃ q g, w = q ++ ')' :: (g ++ [':']) ∧ Blank g) ∧ ∀ q g r, w = q ++ ')' :: (g ++ ':' :: r) → Blank g → r = []

/-- The signature of a method: the word, blanks, the text up to the first
opening parenthesis, and the arguments. -/
def MethodSig (x : Text) : Prop :=
  ∃ ws p w, x = defWord ++ (ws ++ (p ++ '(' :: w)) ∧ ws ≠ [] ∧ Blank ws ∧ '(' ∉ p ∧ Closes w

theorem MethodSig.stop {x : Text} (h : MethodSig x) : ∃ head, x = head ++ [':'] := by
  obtain ⟨ws, p, w, rfl, -, -, -, ⟨q, g, rfl, -⟩, -⟩ := h
  exact ⟨defWord ++ (ws ++ (p ++ '(' :: (q ++ ')' :: g))), by simp⟩

theorem MethodSig.closed {x : Text} (h : MethodSig x) : ∃ h g, x = h ++ ')' :: (g ++ [':']) ∧ Blank g := by
  obtain ⟨ws, p, w, rfl, -, -, -, ⟨q, g, rfl, hg⟩, -⟩ := h
  exact ⟨defWord ++ (ws ++ (p ++ '(' :: q)), g, by simp, hg⟩

theorem MethodSig.first_end {x y a x' y' : Text} (h : MethodSig x) (h' : MethodSig x')
    (heq : x ++ y = a ++ (x' ++ y')) : x.length ≤ a.length + x'.length := by
  refine Nat.le_of_not_lt fun hlt => ?_
  rw [← List.length_append] at hlt
  obtain ⟨z, hx, -⟩ := append_of_length_le ((List.append_assoc ..).trans heq.symm) (Nat.le_of_lt hlt)
  obtain ⟨ws, p, w, rfl, -, hws, hp, -, hfirst⟩ := h
  obtain ⟨ws', p', w', rfl, -, -, -, ⟨q', g', rfl, hg'⟩, -⟩ := h'
  have hnil : z = [] := by
    -- The first parenthesis of the second signature is one of the first.
    have hfree : '(' ∉ defWord ++ (ws ++ p) := by
      simp only [List.mem_append, not_or]
      exact ⟨by decide, not_mem_blank (by decide) hws, hp⟩
    have hopen : (defWord ++ (ws ++ p)) ++ '(' :: w =
        (a ++ (defWord ++ (ws' ++ p'))) ++ '(' :: (q' ++ ')' :: (g' ++ ':' :: z)) := by
      simpa using hx
    obtain ⟨k, hk⟩ := append_of_first hfree hopen
    exact hfirst (k ++ q') g' z (by rw [hk]; simp) hg'
  rw [hnil, List.append_nil] at hx
  rw [hx] at hlt
  omega

/-- The form of the signatures of methods. -/
def methodForm : Form where
  Sig := MethodSig
  start := by
    rintro x ⟨ws, p, w, rfl, -⟩
    exact ⟨'d', _, rfl, by decide⟩
  stop _ h := h.stop
  first_end _ _ _ _ _ h h' := h.first_end h'

/-! ## Classes behind methods -/

/-- No signature of a class goes on behind the blanks that follow a signature
of a method. -/
theorem not_classSig_of_method {pre r a x B w : Text} (hx : MethodSig x) (hB : Blank B)
    (hr : pre ++ r = a ++ (x ++ B)) (hne : r ≠ []) (hw : w ≠ []) : ¬ClassSig (r ++ w) := by
  intro hsig
  obtain ⟨h, g, rfl, hg⟩ := hx.closed
  obtain ⟨c, rest, hstart, hc⟩ := classForm.start _ hsig
  obtain ⟨ws, n, s, hparts, hws, hblank, -, hs⟩ := hsig.colons
  have hfirst : c = 'c' := by
    rw [hstart] at hparts
    exact (List.cons.inj hparts).1
  have hcut : pre ++ r = ((a ++ h) ++ ')' :: g) ++ ':' :: B := by simpa using hr
  rcases List.append_eq_append_iff.1 hcut with ⟨m, hm, rfl⟩ | ⟨m, -, hm⟩
  · rcases List.eq_nil_or_concat w with rfl | ⟨w, last, rfl⟩
    · exact hw rfl
    have hinit : m ++ ':' :: (B ++ w) = (classWord ++ ws) ++ n :: s := by
      have hsplit : (m ++ ':' :: (B ++ w)) ++ [last] = ((classWord ++ ws) ++ n :: s) ++ [':'] := by
        simpa using hparts
      exact (List.append_inj' hsplit rfl).1
    obtain ⟨rfl, -, -⟩ := (List.append_cons_inj_of_notMem (colon_not_mem_class hblank) hs).1 hinit.symm
    -- What stands before the blanks would be both a parenthesis and the end of the word.
    have hends : (a ++ h) ++ ')' :: g = (pre ++ ['c', 'l', 'a', 's']) ++ 's' :: ws := by
      rw [hm]
      simp [classWord]
    obtain ⟨-, hchar, -⟩ := append_blank_unique (by decide) (by decide) hg hblank hends
    cases hchar
  · cases r with
    | nil => exact hne rfl
    | cons d r =>
      obtain rfl : d = 'c' := by
        rw [List.cons_append, List.cons.injEq] at hstart
        rw [hstart.1, hfirst]
      have hmem : 'c' ∈ ':' :: B := by rw [hm]; simp
      rcases List.mem_cons.1 hmem with hcolon | hmem
      · cases hcolon
      · exact not_mem_blank (by decide) hB hmem

end Python
end DocScribe
