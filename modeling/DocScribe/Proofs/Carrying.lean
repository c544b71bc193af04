/-
Readings that leave alone what follows.

A reading takes a text and gives what it read and the rest. `Carries` says that
a closing parenthesis behind the text is left to whoever reads on, whatever
follows it. Blanks may be skipped behind what was read, and a comment among
them takes the parenthesis away; then it takes the rest of its line too.
Readings done one after the other have the property when each of them has
(`Carries.bind`).
-/
import DocScribe.Pattern.Parser

namespace DocScribe

theorem eq_ok_of_toOption {ε α : Type} {x : Except ε α} {a : α} (h : x.toOption = some a) : x = .ok a := by
  cases x with
  | error e => cases h
  | ok b => exact congrArg Except.ok (Option.some.inj h)

namespace Pattern

/-! ## Readings that leave what follows alone -/

/-- The text `u` reads as `a` and leaves `v`, and a closing parenthesis behind
it stays where it is. The other case is a comment at the end of `u`, which
goes on to the end of its line. -/
structure Carries {α : Type} (x : Text → Except Fault (α × Text)) (u : Text) (a : α) (v : Text) : Prop where
  alone : x u = .ok (a, v)
  shorter : v.length ≤ u.length
  before : (∀ K, x (u ++ ')' :: K) = .ok (a, v ++ ')' :: K)) ∨
    v = [] ∧ ∀ K, '\n' ∉ K → x (u ++ ')' :: K) = .ok (a, [])

section

variable {α β : Type} {x y : Text → Except Fault (α × Text)} {u v w : Text} {a : α} {b : β} {c : Char}

theorem Carries.pure (a : α) (u : Text) : Carries (fun t => .ok (a, t)) u a u :=
  ⟨rfl, Nat.le_refl _, .inl fun _ => rfl⟩

/-- The same reading of another text. -/
theorem Carries.via {u' : Text} (hy : Carries y u' a v) (hl : u'.length ≤ u.length) (h : x u = y u')
    (hK : ∀ K, x (u ++ ')' :: K) = y (u' ++ ')' :: K)) : Carries x u a v :=
  ⟨h.trans hy.alone, Nat.le_trans hy.shorter hl,
    hy.before.imp (fun hb K => (hK K).trans (hb K)) fun ⟨hv, hb⟩ => ⟨hv, fun K hn => (hK K).trans (hb K hn)⟩⟩

/-- Only `u` itself and `u` before a closing parenthesis count. -/
theorem Carries.congr (hy : Carries y u a v) (h : x u = y u) (hK : ∀ K, x (u ++ ')' :: K) = y (u ++ ')' :: K)) :
    Carries x u a v :=
  hy.via (Nat.le_refl _) h hK

theorem Carries.cons (h : ∀ t, x (c :: t) = y t) (hy : Carries y u a v) : Carries x (c :: u) a v :=
  hy.via (Nat.le_succ _) (h u) fun K => h (u ++ ')' :: K)

/-- A reading that succeeds on longer texts too. -/
theorem Carries.mono (h : ∀ s r, y (u ++ s) = .ok r → x (u ++ s) = .ok r) (hy : Carries y u a v) :
    Carries x u a v := by
  refine ⟨?_, hy.shorter, ?_⟩
  · simpa using h [] (a, v) (by simpa using hy.alone)
  · exact hy.before.imp (fun hb K => h _ _ (hb K)) fun ⟨hv, hb⟩ => ⟨hv, fun K hn => h _ _ (hb K hn)⟩

theorem Carries.bind {z : α → Text → Except Fault (β × Text)} (hx : Carries x u a v) (hz : Carries (z a) v b w) :
    Carries (fun t => (x t).bind fun r => z r.1 r.2) u b w := by
  refine ⟨?_, Nat.le_trans hz.shorter hx.shorter, ?_⟩
  · simp only [hx.alone, Except.bind, hz.alone]
  · rcases hx.before with hxb | ⟨rfl, hxb⟩
    · refine hz.before.imp (fun hzb K => ?_) fun ⟨hw, hzb⟩ => ⟨hw, fun K hK => ?_⟩
      · simp only [hxb, Except.bind, hzb]
      · simp only [hxb, Except.bind, hzb K hK]
    · -- The comment takes all: the second reading starts at the end of the text.
      obtain rfl : w = [] := List.eq_nil_of_length_eq_zero (Nat.le_zero.1 hz.shorter)
      exact .inr ⟨rfl, fun K hK => by simp only [hxb K hK, Except.bind, hz.alone]⟩

theorem Carries.map (f : α → β) (hx : Carries x u a v) :
    Carries (fun t => (x t).map fun r => (f r.1, r.2)) u (f a) v :=
  (hx.bind (z := fun a t => .ok (f a, t)) (.pure _ _)).congr (by cases x u <;> rfl)
    fun K => by cases x (u ++ ')' :: K) <;> rfl

theorem Carries.of_map {f : α → β} {y : Text → Except Fault (β × Text)} (hy : ∀ t, y t = (x t).map fun r => (f r.1, r.2))
    (h : y u = .ok (b, v)) (hx : ∀ a, x u = .ok (a, v) → Carries x u a v) : Carries y u b v := by
  rw [hy] at h
  cases hxu : x u with
  | error e =>
    rw [hxu] at h
    cases h
  | ok r =>
    obtain ⟨a, w⟩ := r
    rw [hxu] at h
    cases h
    exact ((hx a hxu).map f).congr (hy _) fun K => hy _

/-- A result that does not depend on the text. -/
theorem Carries.result {z : Except Fault α} (h : z.map (·, u) = .ok (a, v)) : Carries (fun t => z.map (·, t)) u a v := by
  cases z with
  | error e => cases h
  | ok b =>
    cases h
    exact .pure a u

/-- A part of one character. -/
theorem Carries.one {z : Except Fault α} (h : ∀ t, x (c :: t) = z.map (·, t)) (hx : x (c :: u) = .ok (a, v)) :
    Carries x (c :: u) a v :=
  .cons h (.result ((h u).symm.trans hx))

theorem bind_ok_iff {δ ε : Type} {x : Except ε δ} {z : δ → Except ε β} {b : β} :
    x.bind z = .ok b ↔ ∃ d, x = .ok d ∧ z d = .ok b := by
  cases x <;> simp [Except.bind]

end

/-! ## Blanks and comments -/

theorem skipBlanks_length (b : Bool) (t : Text) : (skipBlanks b t).length ≤ t.length := by
  induction t generalizing b with
  | nil => simp [skipBlanks]
  | cons c t ih =>
    simp only [skipBlanks, List.length_cons]
    split
    · exact Nat.le_succ_of_le (ih _)
    split
    · exact Nat.le_succ_of_le (ih _)
    split
    · exact Nat.le_succ_of_le (ih _)
    · exact Nat.le_refl _

/-- What is skipped ends at a character that counts, or at the end. -/
theorem skipBlanks_append {b : Bool} {t : Text} (h : skipBlanks b t ≠ []) (s : Text) :
    skipBlanks b (t ++ s) = skipBlanks b t ++ s := by
  induction t generalizing b with
  | nil => exact absurd rfl h
  | cons c t ih =>
    simp only [skipBlanks, List.cons_append] at h ⊢
    split
    · next hb => exact ih (by simpa only [if_pos hb] using h)
    · next hb =>
      rw [if_neg hb] at h
      split
      · next hc => exact ih (by simpa only [if_pos hc] using h)
      · next hc =>
        rw [if_neg hc] at h
        split
        · next hm => exact ih (by simpa only [if_pos hm] using h)
        · rfl

theorem skipBlanks_comment {t : Text} (h : '\n' ∉ t) : skipBlanks true t = [] := by
  induction t with
  | nil => rfl
  | cons c t ih =>
    rw [List.mem_cons, not_or] at h
    have hc : (c != '\n') = true := by simpa using Ne.symm h.1
    simpa [skipBlanks, hc] using ih h.2

/-- Where everything is skipped, a closing parenthesis is not, unless a comment
takes it. -/
theorem skipBlanks_close {b : Bool} {t : Text} (h : skipBlanks b t = []) :
    (∀ K, skipBlanks b (t ++ ')' :: K) = ')' :: K) ∨ ∀ K, '\n' ∉ K → skipBlanks b (t ++ ')' :: K) = [] := by
  induction t generalizing b with
  | nil =>
    cases b with
    | false => exact .inl fun K => rfl
    | true => exact .inr fun K hK => skipBlanks_comment (by simp [hK])
  | cons c t ih =>
    simp only [skipBlanks, List.cons_append] at h ⊢
    split
    · next hb => exact ih (by simpa only [if_pos hb] using h)
    · next hb =>
      rw [if_neg hb] at h
      split
      · next hc => exact ih (by simpa only [if_pos hc] using h)
      · next hc =>
        rw [if_neg hc] at h
        split
        · next hm => exact ih (by simpa only [if_pos hm] using h)
        · next hm =>
          rw [if_neg hm] at h
          cases h

namespace Flags

variable {f : Flags} {t : Text}

@[simp] theorem skip_nil (f : Flags) : f.skip [] = [] := by
  unfold skip
  split <;> rfl

theorem skip_length (f : Flags) (t : Text) : (f.skip t).length ≤ t.length := by
  unfold skip
  split
  · exact skipBlanks_length _ _
  · exact Nat.le_refl _

theorem skip_append (h : f.skip t ≠ []) (s : Text) : f.skip (t ++ s) = f.skip t ++ s := by
  unfold skip at h ⊢
  split
  · next hf => exact skipBlanks_append (by simpa only [if_pos hf] using h) s
  · rfl

theorem skip_cons_append {c : Char} {rest : Text} (h : f.skip t = c :: rest) (s : Text) :
    f.skip (t ++ s) = c :: (rest ++ s) := by
  rw [skip_append (by simp [h]), h]
  rfl

theorem skip_close (f : Flags) (K : Text) : f.skip (')' :: K) = ')' :: K := by
  unfold skip
  split <;> rfl

theorem skip_carries (f : Flags) (u : Text) : Carries (fun t => .ok ((), f.skip t)) u () (f.skip u) := by
  refine ⟨rfl, f.skip_length u, ?_⟩
  by_cases h : f.skip u = []
  · unfold skip at h ⊢
    split
    · next hf =>
      rw [if_pos hf] at h
      exact (skipBlanks_close h).imp (fun hc K => by rw [h, hc]; rfl)
        fun hc => ⟨h, fun K hK => by rw [hc K hK]⟩
    · exact .inl fun K => rfl
  · exact .inl fun K => by rw [skip_append h]

end Flags

section

variable {α : Type} {x : Text → Except Fault (α × Text)} {u v : Text} {a : α}

theorem Carries.skip {f : Flags} (h : Carries x (f.skip u) a v) : Carries (fun t => x (f.skip t)) u a v :=
  (f.skip_carries u).bind (z := fun _ => x) h

theorem Carries.dropBlanks (h : Carries x (u.dropWhile isBlank) a v) :
    Carries (fun t => x (t.dropWhile isBlank)) u a v := by
  have hdrop : Carries (fun t => .ok ((), t.dropWhile isBlank)) u () (u.dropWhile isBlank) := by
    refine ⟨rfl, (List.dropWhile_sublist _).length_le, .inl fun K => ?_⟩
    have hclose : (')' :: K).dropWhile isBlank = ')' :: K := by
      rw [List.dropWhile_cons_of_neg (by decide)]
    rw [List.dropWhile_append]
    split
    · next h => rw [hclose, List.isEmpty_iff.1 h]; rfl
    · rfl
  exact hdrop.bind (z := fun _ => x) h

end

variable {f : Flags} {u : Text}

/-! ## Rows of characters -/

/-- The longest row of characters that `step` takes, with skipped blanks after
each, and what they make of `s`. -/
def consume {σ : Type} (f : Flags) (step : σ → Char → Option σ) : Nat → Text → σ → σ × Text
  | 0, t, s => (s, t)
  | _ + 1, [], s => (s, [])
  | n + 1, c :: t, s =>
    match step s c with
    | some s => consume f step n (f.skip t) s
    | none => (s, c :: t)

section

variable {σ : Type} {step : σ → Char → Option σ} {s : σ}

theorem consume_nil (n : Nat) (s : σ) : consume f step n [] s = (s, []) := by
  cases n <;> rfl

/-- A row is no longer than the text. -/
theorem consume_enough {n m : Nat} (hn : u.length ≤ n) (hm : u.length ≤ m) :
    consume f step n u s = consume f step m u s := by
  induction n generalizing u m s with
  | zero =>
    rw [List.eq_nil_of_length_eq_zero (Nat.le_zero.1 hn), consume_nil, consume_nil]
  | succ n ih =>
    cases u with
    | nil => rw [consume_nil, consume_nil]
    | cons c t =>
      have ht := f.skip_length t
      rw [List.length_cons] at hn hm
      obtain ⟨m, rfl⟩ : ∃ k, m = k + 1 := ⟨m - 1, by omega⟩
      simp only [consume]
      split
      · exact ih (by omega) (by omega)
      · rfl

theorem consume_cons (c : Char) (t : Text) (s : σ) :
    consume f step (c :: t).length (c :: t) s =
      match step s c with
      | some s => consume f step (f.skip t).length (f.skip t) s
      | none => (s, c :: t) := by
  simp only [List.length_cons, consume]
  split
  · exact consume_enough (f.skip_length t) (Nat.le_refl _)
  · rfl

/-- A row does not take a closing parenthesis. -/
theorem consume_carries (f : Flags) (step : σ → Char → Option σ) (hclose : ∀ s, step s ')' = none) (u : Text) (s : σ) :
    Carries (fun t => .ok (consume f step t.length t s)) u (consume f step u.length u s).1
      (consume f step u.length u s).2 := by
  induction hn : u.length using Nat.strongRecOn generalizing u s with
  | ind n ih =>
    subst hn
    cases u with
    | nil => exact (Carries.pure s []).congr rfl fun K => by rw [List.nil_append, consume_cons, hclose]
    | cons c t =>
      rw [consume_cons]
      cases hc : step s c with
      | none => exact (Carries.pure s (c :: t)).congr (by rw [consume_cons, hc]) fun K => by rw [List.cons_append, consume_cons, hc]
      | some s' =>
        have ht := f.skip_length t
        exact .cons (fun t => by rw [consume_cons, hc]) (ih _ (by simp only [List.length_cons]; omega) (f.skip t) s' rfl).skip

theorem consume_length {σ : Type} (step : σ → Char → Option σ) (n : Nat) {t : Text} {s : σ} :
    (consume f step n t s).2.length ≤ t.length := by
  induction n generalizing t s with
  | zero => exact Nat.le_refl _
  | succ n ih =>
    cases t with
    | nil => exact Nat.le_refl _
    | cons c t =>
      simp only [consume]
      split
      · exact Nat.le_succ_of_le (Nat.le_trans ih (f.skip_length t))
      · exact Nat.le_refl _

end

/-- A row of characters, written down backwards. -/
def rowStep (p : Char → Bool) (row : Text) (c : Char) : Option Text := if p c then some (c :: row) else none

theorem edgeName_eq (f : Flags) (n : Nat) (t name : Text) :
    edgeName f n t name =
      ((consume f (rowStep fun c => c.isAlpha || c = '-') n t name).1.reverse,
        (consume f (rowStep fun c => c.isAlpha || c = '-') n t name).2) := by
  induction n generalizing t name with
  | zero => rfl
  | succ n ih =>
    cases t with
    | nil => rfl
    | cons c t =>
      simp only [edgeName, consume, rowStep]
      split
      · exact ih ..
      · rfl

theorem decimalDigits_eq (f : Flags) (n : Nat) (t digits : Text) :
    decimalDigits f n t digits =
      ((consume f (rowStep Char.isDigit) n t digits).1.reverse, (consume f (rowStep Char.isDigit) n t digits).2) := by
  induction n generalizing t digits with
  | zero => rfl
  | succ n ih =>
    cases t with
    | nil => rfl
    | cons c t =>
      simp only [decimalDigits, consume, rowStep]
      split
      · exact ih ..
      · rfl

theorem leadingHyphens_eq (f : Flags) (n : Nat) (t : Text) (s : CharSet) :
    leadingHyphens f n t s =
      consume f (fun s c => if c = '-' then some (.union s (.single '-')) else none) n t s := by
  induction n generalizing t s with
  | zero => rfl
  | succ n ih =>
    cases t with
    | nil => rfl
    | cons c t =>
      by_cases hc : c = '-'
      · subst hc
        exact ih ..
      · simp [leadingHyphens, consume, hc]

end Pattern
end DocScribe
