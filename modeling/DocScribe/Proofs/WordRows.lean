/-
Words set out on lines.

A list is cut into rows that are full, the last one apart (`inRows_rows`), and
there is only one way to do so (`InRows.unique`). Every row of words becomes a line,
and the words of the line are the row (`Text.segments_wrapWords`). So what is
said of the lines of a text that was set anew, `Text.SetOut`, leaves no choice
(`eq_wrapWords_iff`).
-/
import DocScribe.Proofs.Docstrings
import DocScribe.Proofs.Words

namespace DocScribe

/-! ## Rows -/

section rows
variable {α : Type} {n : Nat} {row row' : List α} {rs rs' : List (List α)}

/-- Rows of `n` elements, the last of which can be shorter but is not empty. -/
def InRows (n : Nat) (rs : List (List α)) : Prop :=
  (∀ row ∈ rs.dropLast, row.length = n) ∧ ∀ row ∈ rs.getLast?, 1 ≤ row.length ∧ row.length ≤ n

theorem inRows_nil (n : Nat) : InRows n ([] : List (List α)) := ⟨by simp, by simp⟩

theorem inRows_singleton : InRows n [row] ↔ 1 ≤ row.length ∧ row.length ≤ n := by simp [InRows]

theorem inRows_cons_cons : InRows n (row :: row' :: rs) ↔ row.length = n ∧ InRows n (row' :: rs) := by
  simp only [InRows, List.dropLast_cons_cons, List.forall_mem_cons, List.getLast?_cons_cons, and_assoc]

theorem InRows.cons (hfull : row.length = n) (hn : 1 ≤ n) (h : InRows n rs) : InRows n (row :: rs) := by
  cases rs with
  | nil => exact inRows_singleton.2 ⟨by omega, by omega⟩
  | cons row' rs => exact inRows_cons_cons.2 ⟨hfull, h⟩

theorem InRows.tail (h : InRows n (row :: rs)) : InRows n rs := by
  cases rs with
  | nil => exact inRows_nil n
  | cons row' rs => exact (inRows_cons_cons.1 h).2

theorem InRows.ne_nil (h : InRows n (row :: rs)) : row ≠ [] := by
  induction rs generalizing row with
  | nil => exact List.length_pos_iff.1 (inRows_singleton.1 h).1
  | cons row' rs ih =>
    obtain ⟨hfull, hrest⟩ := inRows_cons_cons.1 h
    have hn : row'.length ≤ n := by
      cases rs with
      | nil => exact (inRows_singleton.1 hrest).2
      | cons row'' rs => exact Nat.le_of_eq (inRows_cons_cons.1 hrest).1
    have := List.length_pos_iff.2 (ih hrest)
    exact List.length_pos_iff.1 (by omega)

/-- The first row is all that goes into it. -/
theorem InRows.head_eq (h : InRows n (row :: rs)) : row = (row :: rs).flatten.take n := by
  cases rs with
  | nil =>
    rw [List.flatten_singleton, List.take_of_length_le (inRows_singleton.1 h).2]
  | cons row' rs =>
    rw [List.flatten_cons, List.take_left' (inRows_cons_cons.1 h).1]

/-- **A list is cut into full rows in one way only.** -/
theorem InRows.unique (h : InRows n rs) (h' : InRows n rs') (heq : rs.flatten = rs'.flatten) : rs = rs' := by
  induction rs generalizing rs' with
  | nil =>
    cases rs' with
    | nil => rfl
    | cons row' rs' => exact absurd (List.append_eq_nil_iff.1 heq.symm).1 h'.ne_nil
  | cons row rs ih =>
    cases rs' with
    | nil => exact absurd (List.append_eq_nil_iff.1 heq).1 h.ne_nil
    | cons row' rs' =>
      obtain rfl : row = row' := by rw [h.head_eq, heq, ← h'.head_eq]
      rw [ih h.tail h'.tail (List.append_cancel_left heq)]

theorem inRows_rowsFrom {width room : Nat} (h : row.length + room = width) (xs : List α) :
    InRows (width + 1) (rowsFrom width row room xs) := by
  fun_induction rowsFrom width row room xs with
  | case1 row room hempty => exact inRows_nil _
  | case2 row room hsome =>
    have hpos : 1 ≤ row.length := List.length_pos_iff.2 (by simpa using hsome)
    rw [inRows_singleton, List.length_reverse]
    omega
  | case3 row x xs ih => exact (ih (by simp)).cons (by simp only [List.length_reverse, List.length_cons]; omega) (by omega)
  | case4 row room x xs ih => exact ih (by simp only [List.length_cons]; omega)

/-- The rows of a list are full. -/
theorem inRows_rows (hn : 0 < n) (xs : List α) : InRows n (rows n xs) := by
  obtain ⟨width, rfl⟩ : ∃ width, n = width + 1 := ⟨n - 1, by omega⟩
  exact inRows_rowsFrom (Nat.zero_add width) xs

end rows

/-! ## Lines -/

namespace Text

variable {t : Text} {row : List Text} {n : Nat}

theorem not_feed_line (h : ∀ w ∈ row, w ∈ words t) : '\n' ∉ join [' '] row := by
  induction row with
  | nil => simp [join]
  | cons w row ih =>
    have hw : '\n' ∉ w := fun hfeed => by
      have := (marked_of_mem_words (h w List.mem_cons_self)).2 '\n' hfeed
      simp [isBlank] at this
    have hrow := ih fun w' hw' => h w' (List.mem_cons_of_mem w hw')
    cases row with
    | nil => simpa [join] using hw
    | cons w' row =>
      rw [join_cons_cons]
      simp [hw, hrow]

theorem trimmed_nil : Trimmed [] := ⟨by simp, by simp⟩

theorem trimmed_line (h : ∀ w ∈ row, w ∈ words t) : Trimmed (join [' '] row) := by
  cases row with
  | nil => exact trimmed_nil
  | cons w row =>
    have hends : EndsMarked (join [' '] (w :: row)) := .join (by simp) fun w' hw' => endsMarked_word (h w' hw')
    obtain ⟨hne, hmarked⟩ := marked_of_mem_words (h w List.mem_cons_self)
    obtain ⟨c, w, rfl⟩ := List.exists_cons_of_ne_nil hne
    refine ⟨fun d hd => ?_, fun d hd => ?_⟩
    · have hhead : (join [' '] ((c :: w) :: row)).head? = some c := by
        cases row with
        | nil => simp [join]
        | cons w' row => rw [join_cons_cons]; rfl
      rw [hhead] at hd
      cases hd
      exact hmarked c List.mem_cons_self
    · obtain ⟨init, z, heq, hz⟩ := hends
      rw [heq, List.getLast?_concat] at hd
      cases hd
      exact hz

/-- A text that is set anew has a line for each row of its words. -/
theorem segments_wrapWords (n : Nat) (h : words t ≠ []) :
    segments (wrapWords t n) = (rows n (words t)).map (join [' ']) := by
  have hrows : rows n (words t) ≠ [] := fun hnil => h (rows_eq_nil_iff.1 hnil)
  refine segments_joinLines (by simpa using hrows) fun line hline => ?_
  obtain ⟨row, hrow, rfl⟩ := List.mem_map.1 hline
  exact not_feed_line (mem_words_of_mem_rows hrow)

theorem joinLines_segments (t : Text) : joinLines (segments t) = t := by
  unfold segments
  induction t with
  | nil => rfl
  | cons c t ih =>
    obtain ⟨p, ps, hp⟩ := List.exists_cons_of_ne_nil (pieces_ne_nil (· == '\n') t)
    rw [hp] at ih
    by_cases hc : c = '\n'
    · rw [pieces, if_pos (by simpa using hc), hp, joinLines, join_cons_cons, ← joinLines, ih, hc]
      rfl
    · rw [pieces, if_neg (by simpa using hc), hp]
      cases ps with
      | nil => simpa [joinLines, join] using congrArg (c :: ·) ih
      | cons q qs =>
        rw [joinLines, join_cons_cons] at ih ⊢
        exact congrArg (c :: ·) ih

/-- A text that is some words set out on lines: `n` on each but the last, all of
them on one line when `n` is zero. -/
structure SetOut (ws : List Text) (n : Nat) (u : Text) : Prop where
  /-- These words and no others, in this order. -/
  words_eq : words u = ws
  /-- One space stands between two words. -/
  spaced : ∀ line ∈ segments u, line = join [' '] (words line)
  /-- No blank stands at the start or the end of a line. -/
  trimmed : ∀ line ∈ segments u, Trimmed line
  single : n = 0 → segments u = [u]
  full : 0 < n → ∀ line ∈ (segments u).dropLast, (words line).length = n
  last : 0 < n → ws ≠ [] → ∀ line ∈ (segments u).getLast?, 1 ≤ (words line).length ∧ (words line).length ≤ n
  empty : ws = [] → u = []

/-- The words of the lines are rows. -/
theorem SetOut.inRows {ws : List Text} {u : Text} (h : SetOut ws n u) (hn : 0 < n) (hws : ws ≠ []) :
    InRows n ((segments u).map words) := by
  refine ⟨fun row hrow => ?_, fun row hrow => ?_⟩
  · rw [← List.map_dropLast] at hrow
    obtain ⟨line, hline, rfl⟩ := List.mem_map.1 hrow
    exact h.full hn line hline
  · rw [List.getLast?_map] at hrow
    obtain ⟨line, hline, rfl⟩ := Option.map_eq_some_iff.1 hrow
    exact h.last hn hws line hline

/-- A text is its rows of words, set out. -/
theorem SetOut.eq_joinLines {ws : List Text} {u : Text} (h : SetOut ws n u) :
    u = joinLines (((segments u).map words).map (join [' '])) := by
  have hlines : ((segments u).map words).map (join [' ']) = segments u := by
    rw [List.map_map]
    exact (List.map_congr_left fun line hline => (h.spaced line hline).symm).trans (List.map_id _)
  rw [hlines, joinLines_segments]

/-- **Some words are set out in one way only.** -/
theorem SetOut.unique {ws : List Text} {u u' : Text} (h : SetOut ws n u) (h' : SetOut ws n u') : u = u' := by
  by_cases hws : ws = []
  · rw [h.empty hws, h'.empty hws]
  have hrows : (segments u).map words = (segments u').map words := by
    obtain rfl | hn := Nat.eq_zero_or_pos n
    · rw [h.single rfl, h'.single rfl, List.map_singleton, List.map_singleton, h.words_eq, h'.words_eq]
    · refine (h.inRows hn hws).unique (h'.inRows hn hws) ?_
      rw [← List.flatMap_def, ← List.flatMap_def, ← words_joinLines, ← words_joinLines, joinLines_segments,
        joinLines_segments, h.words_eq, h'.words_eq]
  rw [h.eq_joinLines, h'.eq_joinLines, hrows]

theorem setOut_wrapWords (t : Text) (n : Nat) : SetOut (words t) n (wrapWords t n) := by
  by_cases hnone : words t = []
  · have hempty : wrapWords t n = [] := by rw [wrapWords, hnone, rows_eq_nil_iff.2 rfl]; rfl
    rw [hempty, hnone]
    constructor <;> simp [segments, pieces, words, join, trimmed_nil]
  have hsegments := segments_wrapWords n hnone
  have hwords : ∀ row ∈ rows n (words t), words (join [' '] row) = row := fun row hrow =>
    words_line (mem_words_of_mem_rows hrow)
  constructor
  case words_eq => exact words_wrapWords t n
  case spaced =>
    intro line hline
    rw [hsegments] at hline
    obtain ⟨row, hrow, rfl⟩ := List.mem_map.1 hline
    rw [hwords row hrow]
  case trimmed =>
    intro line hline
    rw [hsegments] at hline
    obtain ⟨row, hrow, rfl⟩ := List.mem_map.1 hline
    exact trimmed_line (mem_words_of_mem_rows hrow)
  case single =>
    rintro rfl
    have hone : rows 0 (words t) = [words t] := by simp [rows, hnone]
    rw [hsegments, wrapWords, hone]
    simp [joinLines, join]
  case full =>
    intro hn line hline
    rw [hsegments, ← List.map_dropLast] at hline
    obtain ⟨row, hrow, rfl⟩ := List.mem_map.1 hline
    rw [hwords row (List.dropLast_subset _ hrow)]
    exact (inRows_rows hn _).1 row hrow
  case last =>
    intro hn _ line hline
    rw [hsegments, List.getLast?_map] at hline
    obtain ⟨row, hrow, rfl⟩ := Option.map_eq_some_iff.1 hline
    rw [hwords row (List.mem_of_getLast? hrow)]
    exact (inRows_rows hn _).2 row hrow
  case empty => exact fun h => absurd h hnone

end Text

/-- **What is said of a text that was set anew is true of no other text**, and to
set it anew once more is to set the first text anew. -/
theorem eq_wrapWords_iff (t u : Text) (m n : Nat) :
    (u = wrapWords t n ↔ Text.SetOut (Text.words t) n u) ∧ wrapWords (wrapWords t m) n = wrapWords t n := by
  refine ⟨⟨?_, fun h => h.unique (Text.setOut_wrapWords t n)⟩, ?_⟩
  · rintro rfl
    exact Text.setOut_wrapWords t n
  · rw [wrapWords, words_wrapWords, ← wrapWords]

/-- The last line takes what is left. -/
example : wrapWords " a b\n\tc " 2 = "a b\nc" := by decide

end DocScribe
