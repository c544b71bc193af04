/-
Sweeping a text for signatures of one form.

A sweep goes over a text from left to right. Where a signature starts it takes
the signature, the blanks behind it and, if they follow, the quotes that open a
docstring; everywhere else it goes on by one character (`Form.Passes`).

What makes sweeps easy to compare is that a signature that starts further left
also ends no later (`Form.first_end`): its end depends only on the first end
token that qualifies. Hence `Form.Passes.next`: whatever signature stands in a
text, the sweep takes one that ends there or before.
-/
import DocScribe.Proofs.LineFacts

namespace DocScribe

/-- A text of blank characters. -/
def Blank (t : Text) : Prop := ∀ c ∈ t, isBlank c = true

-- A search for this instance can end in a check of every character there is.
instance (t : Text) : Decidable (Blank t) := List.decidableBAll (isBlank · = true) t

theorem Blank.nil : Blank [] := by simp [Blank]

theorem blank_append {a b : Text} : Blank (a ++ b) ↔ Blank a ∧ Blank b := by
  simp only [Blank, List.mem_append]
  exact ⟨fun h => ⟨fun c hc => h c (.inl hc), fun c hc => h c (.inr hc)⟩,
    fun h c hc => hc.elim (h.1 c) (h.2 c)⟩

theorem blank_takeWhile (t : Text) : Blank (t.takeWhile isBlank) := fun c hc =>
  List.all_eq_true.1 List.all_takeWhile c hc

theorem dropWhile_blank_append {a : Text} (h : Blank a) (b : Text) :
    (a ++ b).dropWhile isBlank = b.dropWhile isBlank := by
  induction a with
  | nil => rfl
  | cons c a ih =>
    rw [List.cons_append, List.dropWhile_cons_of_pos (h c List.mem_cons_self)]
    exact ih fun d hd => h d (List.mem_cons_of_mem c hd)

/-! ## The quotes behind a signature -/

/-- What opens and closes a docstring. -/
def quotes : Text := ['"', '"', '"']

/-- Whether a docstring opens a text, blanks apart. -/
def opened (y : Text) : Bool := Text.startsWith (y.dropWhile isBlank) quotes

/-- The blanks that start a text and the quotes behind them. -/
def gap (y : Text) : Text := y.takeWhile isBlank ++ if opened y then quotes else []

/-- What follows the blanks that start a text and the quotes behind them. -/
def past (y : Text) : Text := if opened y then (y.dropWhile isBlank).drop 3 else y.dropWhile isBlank

theorem opened_iff {y : Text} : opened y = true ↔ ∃ b rest, Blank b ∧ y = b ++ (quotes ++ rest) := by
  rw [opened, Text.startsWith_iff]
  constructor
  · rintro ⟨rest, h⟩
    exact ⟨y.takeWhile isBlank, rest, blank_takeWhile y, by rw [← h, List.takeWhile_append_dropWhile]⟩
  · rintro ⟨b, rest, hb, rfl⟩
    refine ⟨rest, ?_⟩
    rw [dropWhile_blank_append hb, quotes, List.cons_append, List.dropWhile_cons_of_neg (by decide)]

theorem gap_append_past (y : Text) : gap y ++ past y = y := by
  unfold gap past
  split
  · next h =>
    obtain ⟨rest, hrest⟩ := Text.startsWith_iff.1 h
    rw [hrest, List.append_assoc, show (quotes ++ rest).drop 3 = rest from rfl, ← hrest,
      List.takeWhile_append_dropWhile]
  · rw [List.append_nil, List.takeWhile_append_dropWhile]

theorem gap_of_not_opened {y : Text} (h : opened y = false) : gap y = y.takeWhile isBlank := by
  simp [gap, h]

theorem opened_blank_append {a : Text} (h : Blank a) (b : Text) : opened (a ++ b) = opened b := by
  rw [opened, opened, dropWhile_blank_append h]

theorem opened_append {s : Text} (h : opened s = true) (rest : Text) : opened (s ++ rest) = true := by
  obtain ⟨b, tail, hb, rfl⟩ := opened_iff.1 h
  exact opened_iff.2 ⟨b, tail ++ rest, hb, by simp⟩

theorem past_blank_append {a : Text} (h : Blank a) (b : Text) : past (a ++ b) = past b := by
  rw [past, past, opened_blank_append h, dropWhile_blank_append h]

/-- Blanks and quotes, as they stand in front of anything else. -/
theorem past_blank_quotes {b : Text} (hb : Blank b) (rest : Text) : past (b ++ (quotes ++ rest)) = rest := by
  have hopen : opened (quotes ++ rest) = true := opened_iff.2 ⟨[], rest, .nil, rfl⟩
  rw [past_blank_append hb, past, if_pos hopen, quotes, List.cons_append,
    List.dropWhile_cons_of_neg (by decide)]
  rfl

/-! ## Forms -/

/-- What the signatures of one kind of construct look like. -/
structure Form where
  /-- The texts that are signatures. -/
  Sig : Text → Prop
  start : ∀ x, Sig x → ∃ c rest, x = c :: rest ∧ isBlank c = false
  stop : ∀ x, Sig x → ∃ head, x = head ++ [':']
  /-- Of two signatures in a text, the one that starts first ends no later. -/
  first_end : ∀ x y a x' y', Sig x → Sig x' → x ++ y = a ++ (x' ++ y') → x.length ≤ a.length + x'.length

namespace Form

variable {F : Form}

theorem ne_nil {x : Text} (h : F.Sig x) : x ≠ [] := by
  obtain ⟨c, rest, rfl, -⟩ := F.start x h
  simp

/-- No signature starts a text. -/
def Quiet (F : Form) (t : Text) : Prop := ∀ x y, t = x ++ y → ¬F.Sig x

theorem Quiet.nil : F.Quiet [] := by
  intro x y h hx
  exact ne_nil hx (by simpa using (List.append_eq_nil_iff.1 h.symm).1)

theorem Quiet.blank {c : Char} (hc : isBlank c = true) (t : Text) : F.Quiet (c :: t) := by
  intro x y h hx
  obtain ⟨d, rest, rfl, hd⟩ := F.start x hx
  simp only [List.cons_append, List.cons.injEq] at h
  rw [h.1, hd] at hc
  cases hc

theorem unique {x x' y y' : Text} (h : F.Sig x) (h' : F.Sig x') (heq : x ++ y = x' ++ y') :
    x = x' ∧ y = y' := by
  have h1 := F.first_end x y [] x' y' h h' heq
  have h2 := F.first_end x' y' [] x y h' h heq.symm
  simp only [List.length_nil, Nat.zero_add] at h1 h2
  exact List.append_inj heq (by omega)

/-- A sweep of a text takes some signatures, each with the text behind it, and
has some text left. -/
inductive Passes (F : Form) : Text → List (Text × Text) → Text → Prop
  | done (t : Text) : Passes F t [] t
  | skip {c : Char} {t u : Text} {l : List (Text × Text)} (hquiet : F.Quiet (c :: t)) (hrest : Passes F t l u) :
      Passes F (c :: t) l u
  | take {x y u : Text} {l : List (Text × Text)} (hx : F.Sig x) (hrest : Passes F (past y) l u) :
      Passes F (x ++ y) ((x, y) :: l) u

/-- A sweep to the end of a text. -/
def Sweeps (F : Form) (t : Text) (l : List (Text × Text)) : Prop := F.Passes t l []

theorem Passes.append {t u v : Text} {l l' : List (Text × Text)} (h : F.Passes t l u) (h' : F.Passes u l' v) :
    F.Passes t (l ++ l') v := by
  induction h with
  | done t => exact h'
  | skip hquiet _ ih => exact .skip hquiet (ih h')
  | take hx _ ih => exact .take hx (ih h')

theorem length_past_le (y : Text) : (past y).length ≤ y.length := by
  have := congrArg List.length (gap_append_past y)
  rw [List.length_append] at this
  omega

/-- Every text can be swept to its end. -/
theorem exists_sweeps (F : Form) (t : Text) : ∃ l, F.Sweeps t l := by
  obtain ⟨n, hn⟩ : ∃ n, t.length ≤ n := ⟨_, Nat.le_refl _⟩
  induction n generalizing t with
  | zero =>
    obtain rfl : t = [] := by simpa using hn
    exact ⟨[], .done []⟩
  | succ n ih =>
    by_cases hquiet : F.Quiet t
    · cases t with
      | nil => exact ⟨[], .done []⟩
      | cons c t =>
        obtain ⟨l, hl⟩ := ih t (by simpa using hn)
        exact ⟨l, .skip hquiet hl⟩
    · simp only [Quiet, Classical.not_forall, Classical.not_not] at hquiet
      obtain ⟨x, y, rfl, hx⟩ := hquiet
      have hpos : 0 < x.length := List.length_pos_iff.2 (ne_nil hx)
      have hle := length_past_le y
      rw [List.length_append] at hn
      obtain ⟨l, hl⟩ := ih (past y) (by omega)
      exact ⟨(x, y) :: l, .take hx hl⟩

/-- A sweep up to one of the signatures it takes, and from there on. -/
theorem Passes.split {t u x y : Text} {l₂ : List (Text × Text)} (l₁ : List (Text × Text))
    (h : F.Passes t (l₁ ++ (x, y) :: l₂) u) :
    F.Passes t l₁ (x ++ y) ∧ F.Sig x ∧ F.Passes (past y) l₂ u := by
  generalize hl : l₁ ++ (x, y) :: l₂ = l at h
  induction h generalizing l₁ with
  | done t => simp at hl
  | skip hquiet _ ih =>
    obtain ⟨h1, h2, h3⟩ := ih l₁ hl
    exact ⟨.skip hquiet h1, h2, h3⟩
  | take hx hrest ih =>
    cases l₁ with
    | nil =>
      simp only [List.nil_append, List.cons.injEq, Prod.mk.injEq] at hl
      obtain ⟨⟨rfl, rfl⟩, rfl⟩ := hl
      exact ⟨.done _, hx, hrest⟩
    | cons p l₁ =>
      simp only [List.cons_append, List.cons.injEq] at hl
      obtain ⟨rfl, hl⟩ := hl
      obtain ⟨h1, h2, h3⟩ := ih l₁ hl
      exact ⟨.take hx h1, h2, h3⟩

theorem Passes.suffix {t u : Text} {l : List (Text × Text)} (h : F.Passes t l u) : ∃ a, t = a ++ u := by
  induction h with
  | done t => exact ⟨[], rfl⟩
  | @skip c t u l _ _ ih =>
    obtain ⟨a, rfl⟩ := ih
    exact ⟨c :: a, rfl⟩
  | @take x y u l _ _ ih =>
    obtain ⟨a, ha⟩ := ih
    refine ⟨x ++ (gap y ++ a), ?_⟩
    rw [List.append_assoc, List.append_assoc, ← ha, gap_append_past]

/-- Whatever signature stands in a text, the sweep takes one that ends there or
before. -/
theorem Passes.next {t a x r : Text} {l : List (Text × Text)} (h : F.Sweeps t l) (hx : F.Sig x)
    (ht : t = a ++ (x ++ r)) :
    ∃ x₁ y₁ l₁ a₁, l = (x₁, y₁) :: l₁ ∧ t = a₁ ++ (x₁ ++ y₁) ∧ a₁.length + x₁.length ≤ a.length + x.length := by
  unfold Sweeps at h
  generalize hu : ([] : Text) = u at h
  induction h generalizing a with
  | done t =>
    subst hu
    have := congrArg List.length ht
    have hpos := List.length_pos_iff.2 (ne_nil hx)
    simp at this
    omega
  | @skip c t u l hquiet _ ih =>
    cases a with
    | nil => exact absurd hx (hquiet x r ht)
    | cons d a =>
      simp only [List.cons_append, List.cons.injEq] at ht
      obtain ⟨rfl, ht⟩ := ht
      obtain ⟨x₁, y₁, l₁, a₁, rfl, rfl, hle⟩ := ih ht hu
      exact ⟨x₁, y₁, l₁, c :: a₁, rfl, rfl, by simp only [List.length_cons]; omega⟩
  | @take x₁ y₁ u l hx₁ _ _ =>
    have := F.first_end x₁ y₁ a x r hx₁ hx ht
    exact ⟨x₁, y₁, l, [], rfl, rfl, by simpa using this⟩

end Form
end DocScribe
