/-
The lines of a text by offset.

A table holds where every line starts, so that an offset is found by halving:
at the start of a line, or between the starts of two. `lineOf_ofText`: its line
is the one that counting the line feeds before the offset gives, also for
offsets beyond the end of the text.
-/
import DocScribe.Text.Lines

namespace DocScribe

/-- The offsets at which the lines of a text start, in increasing order. -/
structure LineTable where
  starts : Array Nat

namespace LineTable

/-- The starts of the lines that a text adds which stands at an offset: one
after each line feed. -/
def startsFrom : Nat → Text → List Nat
  | _, [] => []
  | offset, c :: t =>
    let next := offset + c.utf8Size
    if c = '\n' then next :: startsFrom next t else startsFrom next t

/-- The table of a text; its first line starts at zero. -/
def ofText (t : Text) : LineTable := ⟨(0 :: startsFrom 0 t).toArray⟩

/-- Where an offset stands among the starts of lines. -/
inductive Standing where
  /-- A line starts there: that of this place in the table. -/
  | start (place : Nat)
  /-- No line starts there; this is the place at which its start would stand. -/
  | within (place : Nat)

/-- The line, counted from one, of an offset that stands so. -/
def Standing.line : Standing → Nat
  | .start place => place + 1
  | .within place => place

/-- Where an offset stands among the starts from place `low` to before `high`,
found by halving at most `fuel` times. -/
def search (starts : Array Nat) (offset : Nat) : Nat → Nat → Nat → Standing
  | 0, low, _ => .within low
  | fuel + 1, low, high =>
    if low < high then
      let middle := (low + high) / 2
      let start := starts.getD middle 0
      if start = offset then .start middle
      else if start < offset then search starts offset fuel (middle + 1) high
      else search starts offset fuel low middle
    else .within low

/-- The line, counted from one, that holds an offset. -/
def lineOf (table : LineTable) (offset : Nat) : Nat :=
  (search table.starts offset table.starts.size 0 table.starts.size).line

/-- The search finds the place that parts the starts up to the offset from
those after it. -/
theorem line_search {starts : Array Nat} {offset place : Nat}
    (increasing : ∀ i, i + 1 < starts.size → starts.getD i 0 < starts.getD (i + 1) 0)
    (before : ∀ i, i < place → starts.getD i 0 ≤ offset)
    (after : ∀ i, place ≤ i → i < starts.size → offset < starts.getD i 0) :
    ∀ fuel low high, low ≤ place → place ≤ high → high ≤ starts.size → high - low ≤ fuel →
      (search starts offset fuel low high).line = place := by
  intro fuel
  induction fuel with
  | zero =>
    intro low high hlow hhigh _ hfuel
    simp only [search, Standing.line]
    omega
  | succ fuel ih =>
    intro low high hlow hhigh hsize hfuel
    rw [search]
    split
    · next hlt =>
      generalize hmiddle : (low + high) / 2 = middle
      have hbelow : starts.getD middle 0 ≤ offset → middle < place := by
        intro hle
        by_cases h : middle < place
        · exact h
        · have := after middle (by omega) (by omega)
          omega
      dsimp only
      split
      · next hfound =>
        -- the start behind the one found lies behind the offset
        have hlast : ¬middle + 1 < place := by
          intro h
          have hnext := increasing middle (by omega)
          have := before (middle + 1) h
          omega
        have := hbelow (by omega)
        simp only [Standing.line]
        omega
      · split
        · next hless =>
          have := hbelow (by omega)
          exact ih _ _ (by omega) hhigh hsize (by omega)
        · next hne hge =>
          have hplace : place ≤ middle := by
            by_cases h : middle < place
            · have := before middle h
              omega
            · omega
          exact ih _ _ hlow hplace (by omega) (by omega)
    · simp only [Standing.line]
      omega

theorem feedsBefore_zero (t : Text) : t.feedsBefore 0 = 0 := by
  cases t <;> simp [Text.feedsBefore]

/-- A start counts up to an offset exactly when its line feed stands before
the offset. -/
theorem startsFrom_le_iff (t : Text) : ∀ (base offset i start : Nat),
    (startsFrom base t)[i]? = some start → (start ≤ base + offset ↔ i < t.feedsBefore offset) := by
  induction t with
  | nil => intro base offset i start h; simp [startsFrom] at h
  | cons c t ih =>
    intro base offset i start h
    have hsize : 0 < c.utf8Size := c.utf8Size_pos
    rw [startsFrom] at h
    by_cases hc : c = '\n'
    · simp only [hc, if_true] at h
      have hone : '\n'.utf8Size = 1 := rfl
      cases i with
      | zero =>
        simp only [List.getElem?_cons_zero, Option.some.injEq, hone] at h
        simp only [Text.feedsBefore, hc, if_true]
        split <;> omega
      | succ i =>
        simp only [List.getElem?_cons_succ, hone] at h
        have h0 := ih (base + 1) 0 i start h
        have h1 := ih (base + 1) (offset - 1) i start h
        rw [feedsBefore_zero] at h0
        simp only [Text.feedsBefore, hc, if_true, hone]
        split <;> omega
    · simp only [hc, if_false] at h
      have h0 := ih (base + c.utf8Size) 0 i start h
      have h1 := ih (base + c.utf8Size) (offset - c.utf8Size) i start h
      rw [feedsBefore_zero] at h0
      simp only [Text.feedsBefore, hc, if_false]
      by_cases hle : offset < c.utf8Size
      · have hzero : offset - c.utf8Size = 0 := by omega
        rw [hzero, feedsBefore_zero]
        split <;> omega
      · split <;> omega

theorem feedsBefore_le_length (t : Text) : ∀ base offset : Nat,
    t.feedsBefore offset ≤ (startsFrom base t).length := by
  induction t with
  | nil => intro base offset; simp [Text.feedsBefore]
  | cons c t ih =>
    intro base offset
    have h := ih (base + c.utf8Size) (offset - c.utf8Size)
    rw [startsFrom, Text.feedsBefore]
    by_cases hc : c = '\n'
    · simp only [hc, if_true, List.length_cons] at h ⊢
      split <;> omega
    · simp only [hc, if_false] at h ⊢
      split <;> omega

theorem startsFrom_increasing (t : Text) : ∀ base : Nat,
    (∀ start ∈ startsFrom base t, base < start) ∧ (startsFrom base t).Pairwise (· < ·) := by
  induction t with
  | nil => intro base; simp [startsFrom]
  | cons c t ih =>
    intro base
    have hsize : 0 < c.utf8Size := c.utf8Size_pos
    obtain ⟨hafter, hpairwise⟩ := ih (base + c.utf8Size)
    have hlater : ∀ start ∈ startsFrom (base + c.utf8Size) t, base < start := fun start h => by
      have := hafter start h
      omega
    rw [startsFrom]
    by_cases hc : c = '\n'
    · rw [if_pos hc]
      exact ⟨List.forall_mem_cons.2 ⟨by omega, hlater⟩, List.pairwise_cons.2 ⟨hafter, hpairwise⟩⟩
    · rw [if_neg hc]
      exact ⟨hlater, hpairwise⟩

/-- The starts of the lines of a text increase. -/
theorem ofText_increasing (t : Text) (i : Nat) (h : i + 1 < (ofText t).starts.size) :
    (ofText t).starts.getD i 0 < (ofText t).starts.getD (i + 1) 0 := by
  obtain ⟨hafter, hpairwise⟩ := startsFrom_increasing t 0
  have hstarts : (0 :: startsFrom 0 t).Pairwise (· < ·) := List.pairwise_cons.2 ⟨hafter, hpairwise⟩
  have hsize : i + 1 < (0 :: startsFrom 0 t).length := h
  have hlt := List.pairwise_iff_getElem.1 hstarts i (i + 1) (by omega) hsize (by omega)
  simpa [ofText, List.getD, List.getElem?_eq_getElem (Nat.lt_of_succ_lt hsize), List.getElem?_eq_getElem hsize] using hlt

/-- The table gives the line that counting line feeds gives. -/
theorem lineOf_ofText (t : Text) (offset : Nat) : (ofText t).lineOf offset = t.lineOf offset := by
  have hlength := feedsBefore_le_length t 0 offset
  have hsize : (ofText t).starts.size = (startsFrom 0 t).length + 1 := by simp [ofText]
  have hcase : ∀ i, i < (startsFrom 0 t).length →
      ((ofText t).starts.getD (i + 1) 0 ≤ offset ↔ i < t.feedsBefore offset) := by
    intro i hi
    have h := startsFrom_le_iff t 0 offset i _ (List.getElem?_eq_getElem hi)
    simpa [ofText, List.getElem?_eq_getElem hi] using h
  unfold lineOf Text.lineOf
  refine line_search (ofText_increasing t) ?_ ?_ _ _ _ (Nat.zero_le _) (by omega) (Nat.le_refl _) (by omega)
  · intro i hi
    cases i with
    | zero => simp [ofText]
    | succ i => exact (hcase i (by omega)).2 (by omega)
  · intro i hi hlt
    cases i with
    | zero => omega
    | succ i =>
      have := hcase i (by omega)
      omega

end LineTable
end DocScribe
