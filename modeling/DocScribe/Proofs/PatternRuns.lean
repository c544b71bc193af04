/-
Running patterns of characters.

A run of repeated characters answers at some stretch of text
(`exists_of_star`). A lazy repetition stops at the first place where the
continuation answers (`star_lazy`), a greedy one at the end of the stretch
(`star_greedy`).
-/
import DocScribe.Proofs.Matches

namespace DocScribe

/-- The place behind a text that starts at a place. -/
def Cursor.ahead (p : Cursor) : Text → Cursor
  | [] => p
  | c :: r => ahead (p.step c (p.rest.drop 1)) r

namespace Cursor

theorem ahead_append (p : Cursor) (a b : Text) : p.ahead (a ++ b) = (p.ahead a).ahead b := by
  induction a generalizing p with
  | nil => rfl
  | cons c a ih => exact ih _

theorem ahead_rest {p : Cursor} {r R : Text} (h : p.rest = r ++ R) : (p.ahead r).rest = R := by
  induction r generalizing p with
  | nil => exact h
  | cons c r ih => exact ih (by simp [step, h])

theorem ahead_offset (p : Cursor) (r : Text) : (p.ahead r).offset = p.offset + r.size := by
  induction r generalizing p with
  | nil => rfl
  | cons c r ih => rw [ahead, ih, step, Text.size_cons, Nat.add_assoc]

theorem ahead_prev (p : Cursor) (c : Char) (r : Text) : ∃ d, (p.ahead (c :: r)).prev = some d := by
  induction r generalizing p c with
  | nil => exact ⟨c, rfl⟩
  | cons e r ih => exact ih _ e

theorem reaches_ahead {p : Cursor} {r R : Text} (h : p.rest = r ++ R) : p.Reaches (p.ahead r) :=
  ⟨r, by rw [ahead_rest h, h], ahead_offset p r⟩

end Cursor

/-- The same with the groups remembered so far. -/
def Trail.ahead (s : Trail) (r : Text) : Trail := { s with place := s.place.ahead r }

namespace Trail

variable {s : Trail} {r R : Text}

@[simp] theorem ahead_nil (s : Trail) : s.ahead [] = s := rfl

@[simp] theorem ahead_groups (s : Trail) (r : Text) : (s.ahead r).groups = s.groups := rfl

@[simp] theorem ahead_place (s : Trail) (r : Text) : (s.ahead r).place = s.place.ahead r := rfl

theorem ahead_rest (h : s.place.rest = r ++ R) : (s.ahead r).place.rest = R := Cursor.ahead_rest h

/-- The same with the part from a place on remembered under a name. -/
def remember (s : Trail) (name : Text) (first : Cursor) : Trail :=
  { s with groups := (name, ⟨first, s.place⟩) :: s.groups }

@[simp] theorem remember_place (s : Trail) (name : Text) (first : Cursor) :
    (s.remember name first).place = s.place := rfl

@[simp] theorem remember_groups (s : Trail) (name : Text) (first : Cursor) :
    (s.remember name first).groups = (name, ⟨first, s.place⟩) :: s.groups := rfl

end Trail

namespace Pattern

variable {β : Type} {set : CharSet} {greedy : Bool} {s : Trail} {k : Trail → Option β} {b : β}

/-! ## One character -/

theorem run_chars {c : Char} {R : Text} (h : s.place.rest = c :: R) :
    (chars set).run s k = if set.mem c then k (s.ahead [c]) else none := by
  have hstep : { s with place := s.place.step c R } = s.ahead [c] := by
    simp [Trail.ahead, Cursor.ahead, h]
  simp only [run, h, hstep]

theorem run_chars_nil (h : s.place.rest = []) : (chars set).run s k = none := by simp only [run, h]

theorem run_literal (c : Char) {R : Text} (h : s.place.rest = c :: R) :
    (literal c).run s k = k (s.ahead [c]) := by
  rw [literal, run_chars h, if_pos (CharSet.mem_single.2 rfl)]

/-- A character is read only where it stands. -/
theorem exists_of_literal {c : Char} (h : ((literal c).run s k).isSome = true) :
    s.place.rest = c :: (s.ahead [c]).place.rest ∧ (k (s.ahead [c])).isSome = true := by
  cases hrest : s.place.rest with
  | nil =>
    rw [literal, run_chars_nil hrest] at h
    cases h
  | cons d R =>
    rw [literal, run_chars hrest] at h
    split at h
    · next hmem =>
      obtain rfl := CharSet.mem_single.1 hmem
      exact ⟨by rw [Trail.ahead_rest (r := [d]) hrest], h⟩
    · cases h

theorem run_literal_none {c : Char} (h : ∀ R, s.place.rest ≠ c :: R) : (literal c).run s k = none := by
  rw [← Option.not_isSome_iff_eq_none]
  intro hsome
  exact h _ (exists_of_literal hsome).1

/-! ## Repeated characters -/

theorem runMore_chars {c : Char} {R : Text} (h : s.place.rest = c :: R) (f : Trail → Option β) :
    ((chars set).run s fun e => if e.place.offset = s.place.offset then none else f e) =
      if set.mem c then f (s.ahead [c]) else none := by
  have hpos := c.utf8Size_pos
  rw [run_chars h]
  congr 1
  rw [if_neg]
  rw [Trail.ahead_place, Cursor.ahead_offset, Text.size_cons]
  omega

/-- Going on from a place is what repeating any number of times does there. -/
theorem runMore_eq_star (s : Trail) :
    runMore greedy (chars set).run k s.place.rest.length s = (star greedy (chars set)).run s k := by
  cases hrest : s.place.rest with
  | nil => cases greedy <;> simp [star, optional, run, runMore, hrest]
  | cons c R =>
    have hlen : (s.ahead [c]).place.rest.length = R.length := by rw [Trail.ahead_rest (r := [c]) hrest]
    have hplus : (plus greedy (chars set)).run s k =
        if set.mem c then runMore greedy (chars set).run k R.length (s.ahead [c]) else none := by
      have hpos := c.utf8Size_pos
      rw [run, run_chars hrest, hlen]
      congr 1
      rw [if_neg]
      rw [Trail.ahead_place, Cursor.ahead_offset, Text.size_cons]
      omega
    rw [List.length_cons]
    cases greedy <;> simp only [star, optional, Bool.false_eq_true, if_false, if_true, runMore, runMore_chars hrest] <;>
      rw [run, hplus, run]

theorem run_plus {c : Char} {R : Text} (h : s.place.rest = c :: R) :
    (plus greedy (chars set)).run s k =
      if set.mem c then (star greedy (chars set)).run (s.ahead [c]) k else none := by
  have hpos := c.utf8Size_pos
  rw [run, run_chars h, runMore_eq_star]
  congr 1
  rw [if_neg]
  rw [Trail.ahead_place, Cursor.ahead_offset, Text.size_cons]
  omega

theorem run_plus_nil (h : s.place.rest = []) : (plus greedy (chars set)).run s k = none := by
  rw [run, run_chars_nil h]

theorem run_star_nil (h : s.place.rest = []) : (star greedy (chars set)).run s k = k s := by
  cases greedy <;> simp only [star, optional, Bool.false_eq_true, if_false, if_true] <;>
    rw [run, run_plus_nil h, run] <;> simp

theorem run_star_lazy {c : Char} {R : Text} (h : s.place.rest = c :: R) :
    (star false (chars set)).run s k =
      (k s <|> if set.mem c then (star false (chars set)).run (s.ahead [c]) k else none) := by
  conv => lhs; rw [star, optional, if_neg (by simp), run, run_plus h, run]

theorem run_star_greedy {c : Char} {R : Text} (h : s.place.rest = c :: R) :
    (star true (chars set)).run s k =
      ((if set.mem c then (star true (chars set)).run (s.ahead [c]) k else none) <|> k s) := by
  conv => lhs; rw [star, optional, if_pos rfl, run, run_plus h, run]

/-- Repeated characters answer at some stretch of what stands there. A lazy
repetition has no answer at a shorter one. -/
theorem exists_of_star_eq_some (h : (star greedy (chars set)).run s k = some b) :
    ∃ r, s.place.rest = r ++ (s.ahead r).place.rest ∧ (∀ c ∈ r, set.mem c = true) ∧ k (s.ahead r) = some b ∧
      (greedy = false → ∀ r₁ r₂, r = r₁ ++ r₂ → r₂ ≠ [] → k (s.ahead r₁) = none) := by
  have here : ∀ {s : Trail}, k s = some b → ∃ r, s.place.rest = r ++ (s.ahead r).place.rest ∧
      (∀ c ∈ r, set.mem c = true) ∧ k (s.ahead r) = some b ∧
      (greedy = false → ∀ r₁ r₂, r = r₁ ++ r₂ → r₂ ≠ [] → k (s.ahead r₁) = none) :=
    fun hk => ⟨[], rfl, by simp, hk, fun _ r₁ r₂ hr hne => absurd (List.append_eq_nil_iff.1 hr.symm).2 hne⟩
  generalize htext : s.place.rest = t
  induction t generalizing s with
  | nil =>
    rw [run_star_nil htext] at h
    obtain ⟨r, hr, hmore⟩ := here h
    exact ⟨r, htext.symm.trans hr, hmore⟩
  | cons c t ih =>
    have hnext : (s.ahead [c]).place.rest = t := Trail.ahead_rest (r := [c]) htext
    have further : (greedy = false → k s = none) →
        (if set.mem c then (star greedy (chars set)).run (s.ahead [c]) k else none) = some b →
        ∃ r, c :: t = r ++ (s.ahead r).place.rest ∧ (∀ d ∈ r, set.mem d = true) ∧ k (s.ahead r) = some b ∧
          (greedy = false → ∀ r₁ r₂, r = r₁ ++ r₂ → r₂ ≠ [] → k (s.ahead r₁) = none) := by
      intro hnone hrun
      split at hrun
      · next hmem =>
        obtain ⟨r, hrest, hr, hk, hfirst⟩ := ih hrun hnext
        refine ⟨c :: r, congrArg (c :: ·) hrest, List.forall_mem_cons.2 ⟨hmem, hr⟩, hk, fun hg r₁ r₂ hr hne => ?_⟩
        cases r₁ with
        | nil => exact hnone hg
        | cons d r₁ =>
          cases hr
          exact hfirst hg r₁ r₂ rfl hne
      · cases hrun
    cases greedy with
    | false =>
      rw [run_star_lazy htext] at h
      rw [← htext] at further ⊢
      cases hk : k s with
      | some b' =>
        rw [hk] at h
        exact here (hk.trans h)
      | none =>
        rw [hk] at h
        exact further (fun _ => hk) h
    | true =>
      rw [run_star_greedy htext] at h
      rw [← htext] at further ⊢
      cases hmore : (if set.mem c then (star true (chars set)).run (s.ahead [c]) k else none) with
      | some b' =>
        rw [hmore] at h
        exact further (by simp) (hmore.trans h)
      | none =>
        rw [hmore] at h
        exact here h

/-- Repeated characters are read where they stand. -/
theorem exists_of_star (h : ((star greedy (chars set)).run s k).isSome = true) :
    ∃ r, s.place.rest = r ++ (s.ahead r).place.rest ∧ (∀ c ∈ r, set.mem c = true) ∧
      (k (s.ahead r)).isSome = true := by
  obtain ⟨b, hb⟩ := Option.isSome_iff_exists.1 h
  obtain ⟨r, hr, hin, hk, -⟩ := exists_of_star_eq_some hb
  exact ⟨r, hr, hin, Option.isSome_iff_exists.2 ⟨b, hk⟩⟩

/-- Where a stretch of the characters leads to an answer, there is one. -/
theorem isSome_of_star {r R : Text} (hr : s.place.rest = r ++ R) (hin : ∀ c ∈ r, set.mem c = true)
    (hk : (k (s.ahead r)).isSome = true) : ((star greedy (chars set)).run s k).isSome = true := by
  induction r generalizing s with
  | nil =>
    rw [Trail.ahead_nil] at hk
    cases greedy <;> simp [star, optional, run, hk]
  | cons c r ih =>
    have hmore := ih (s := s.ahead [c]) (Trail.ahead_rest (r := [c]) hr) (fun d hd => hin d (List.mem_cons_of_mem c hd)) hk
    cases greedy with
    | false =>
      rw [run_star_lazy hr, if_pos (hin c List.mem_cons_self)]
      simp [hmore]
    | true =>
      rw [run_star_greedy hr, if_pos (hin c List.mem_cons_self)]
      simp [hmore]

theorem exists_of_plus_eq_some (h : (plus greedy (chars set)).run s k = some b) :
    ∃ c r, s.place.rest = c :: r ++ (s.ahead (c :: r)).place.rest ∧ (∀ d ∈ c :: r, set.mem d = true) ∧
      k (s.ahead (c :: r)) = some b := by
  cases htext : s.place.rest with
  | nil =>
    rw [run_plus_nil htext] at h
    cases h
  | cons c t =>
    rw [run_plus htext] at h
    split at h
    · next hmem =>
      obtain ⟨r, hr, hin, hk, -⟩ := exists_of_star_eq_some h
      rw [Trail.ahead_rest (r := [c]) htext] at hr
      exact ⟨c, r, congrArg (c :: ·) hr, List.forall_mem_cons.2 ⟨hmem, hin⟩, hk⟩
    · cases h

theorem exists_of_plus (h : ((plus greedy (chars set)).run s k).isSome = true) :
    ∃ c r, s.place.rest = c :: r ++ (s.ahead (c :: r)).place.rest ∧ (∀ d ∈ c :: r, set.mem d = true) ∧
      (k (s.ahead (c :: r))).isSome = true := by
  obtain ⟨b, hb⟩ := Option.isSome_iff_exists.1 h
  obtain ⟨c, r, hr, hin, hk⟩ := exists_of_plus_eq_some hb
  exact ⟨c, r, hr, hin, Option.isSome_iff_exists.2 ⟨b, hk⟩⟩

theorem isSome_of_plus {r R : Text} (hr : s.place.rest = r ++ R) (hne : r ≠ []) (hin : ∀ c ∈ r, set.mem c = true)
    (hk : (k (s.ahead r)).isSome = true) : ((plus greedy (chars set)).run s k).isSome = true := by
  cases r with
  | nil => exact absurd rfl hne
  | cons c r =>
    rw [run_plus hr, if_pos (hin c List.mem_cons_self)]
    exact isSome_of_star (s := s.ahead [c]) (Trail.ahead_rest (r := [c]) hr) (fun d hd => hin d (List.mem_cons_of_mem c hd)) hk

theorem star_none (h : ∀ r R, s.place.rest = r ++ R → (∀ c ∈ r, set.mem c = true) → k (s.ahead r) = none) :
    (star greedy (chars set)).run s k = none := by
  rw [← Option.not_isSome_iff_eq_none]
  intro hsome
  obtain ⟨r, hr, hin, hk⟩ := exists_of_star hsome
  rw [h r _ hr hin] at hk
  cases hk

/-- A lazy repetition stops at the first place where the continuation
answers. -/
theorem star_lazy {r R : Text} (hr : s.place.rest = r ++ R) (hin : ∀ c ∈ r, set.mem c = true)
    (hk : k (s.ahead r) = some b) (hfirst : ∀ r₁ r₂, r = r₁ ++ r₂ → r₂ ≠ [] → k (s.ahead r₁) = none) :
    (star false (chars set)).run s k = some b := by
  induction r generalizing s with
  | nil =>
    rw [Trail.ahead_nil] at hk
    cases htext : s.place.rest with
    | nil => rw [run_star_nil htext, hk]
    | cons c t =>
      rw [run_star_lazy htext, hk]
      rfl
  | cons c r ih =>
    have hnone : k s = none := hfirst [] (c :: r) rfl (by simp)
    rw [run_star_lazy hr, hnone, if_pos (hin c List.mem_cons_self)]
    exact ih (s := s.ahead [c]) (Trail.ahead_rest (r := [c]) hr) (fun d hd => hin d (List.mem_cons_of_mem c hd)) hk
      fun r₁ r₂ hr₁ hne => hfirst (c :: r₁) r₂ (by rw [hr₁]; rfl) hne

/-- A greedy repetition goes on to the end of the stretch. -/
theorem star_greedy {r R : Text} (hr : s.place.rest = r ++ R) (hin : ∀ c ∈ r, set.mem c = true)
    (hend : ∀ c R', R = c :: R' → set.mem c = false) (hk : k (s.ahead r) = some b) :
    (star true (chars set)).run s k = some b := by
  induction r generalizing s with
  | nil =>
    rw [Trail.ahead_nil] at hk
    cases htext : s.place.rest with
    | nil => rw [run_star_nil htext, hk]
    | cons c t =>
      rw [run_star_greedy htext, hend c t (by rw [← htext, hr]; rfl), hk]
      rfl
  | cons c r ih =>
    rw [run_star_greedy hr, if_pos (hin c List.mem_cons_self),
      ih (s := s.ahead [c]) (Trail.ahead_rest (r := [c]) hr) (fun d hd => hin d (List.mem_cons_of_mem c hd)) hk]
    rfl

theorem plus_lazy {c : Char} {r R : Text} (hr : s.place.rest = c :: (r ++ R))
    (hin : ∀ d ∈ c :: r, set.mem d = true) (hk : k (s.ahead (c :: r)) = some b)
    (hfirst : ∀ r₁ r₂, r = r₁ ++ r₂ → r₂ ≠ [] → k (s.ahead (c :: r₁)) = none) :
    (plus false (chars set)).run s k = some b := by
  rw [run_plus hr, if_pos (hin c List.mem_cons_self)]
  exact star_lazy (s := s.ahead [c]) (Trail.ahead_rest (r := [c]) hr)
    (fun d hd => hin d (List.mem_cons_of_mem c hd)) hk hfirst

theorem plus_greedy {c : Char} {r R : Text} (hr : s.place.rest = c :: (r ++ R))
    (hin : ∀ d ∈ c :: r, set.mem d = true)
    (hend : ∀ d R', R = d :: R' → set.mem d = false) (hk : k (s.ahead (c :: r)) = some b) :
    (plus true (chars set)).run s k = some b := by
  rw [run_plus hr, if_pos (hin c List.mem_cons_self)]
  exact star_greedy (s := s.ahead [c]) (Trail.ahead_rest (r := [c]) hr) (fun d hd => hin d (List.mem_cons_of_mem c hd))
    hend hk

/-! ## Tokens -/

theorem run_seqs_cons (p : Pattern) (ps : List Pattern) :
    (seqs (p :: ps)).run s k = p.run s fun e => (seqs ps).run e k := by
  cases ps with
  | nil => rfl
  | cons q ps => rfl

theorem run_optional (p : Pattern) : (repeated true p 0 (some 1)).run s k = (p.run s k <|> k s) := rfl

theorem run_group (name : Text) (p : Pattern) :
    (group name p).run s k = p.run s fun e => k (e.remember name s.place) := rfl

theorem run_seqs_append (ps qs : List Pattern) :
    (seqs (ps ++ qs)).run s k = (seqs ps).run s fun e => (seqs qs).run e k := by
  induction ps generalizing s with
  | nil => rfl
  | cons p ps ih =>
    rw [List.cons_append, run_seqs_cons, run_seqs_cons]
    simp only [ih]

/-- A token is read where it stands. -/
theorem run_token {t R : Text} (h : s.place.rest = t ++ R) :
    (seqs (t.map literal)).run s k = k (s.ahead t) := by
  induction t generalizing s with
  | nil => rfl
  | cons c t ih =>
    rw [List.map_cons, run_seqs_cons, run_literal c h, ih (Trail.ahead_rest (r := [c]) h)]
    rfl

theorem exists_of_token {t : Text} (h : ((seqs (t.map literal)).run s k).isSome = true) :
    s.place.rest = t ++ (s.ahead t).place.rest ∧ (k (s.ahead t)).isSome = true := by
  induction t generalizing s with
  | nil => exact ⟨rfl, h⟩
  | cons c t ih =>
    rw [List.map_cons, run_seqs_cons] at h
    obtain ⟨hc, h⟩ := exists_of_literal h
    obtain ⟨ht, h⟩ := ih h
    exact ⟨hc.trans (congrArg (c :: ·) ht), h⟩

theorem exists_of_token_eq_some {t : Text} (h : (seqs (t.map literal)).run s k = some b) :
    s.place.rest = t ++ (s.ahead t).place.rest ∧ k (s.ahead t) = some b := by
  have ht := (exists_of_token (Option.isSome_iff_exists.2 ⟨b, h⟩)).1
  rw [run_token ht] at h
  exact ⟨ht, h⟩

end Pattern
end DocScribe
