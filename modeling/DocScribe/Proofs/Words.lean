/-
Words.

Blanks part the words of a text and belong to none of them. So trimming a text
keeps its words (`Text.words_trim`), texts in a row with blanks between them
keep theirs in order (`Text.words_join`), and so does a text that is set anew
on lines (`words_wrapWords`). A text is trimmed when it has no blank at either
end: trimming makes it so (`Text.trimmed_trim`) and leaves it so
(`Text.Trimmed.trim_eq`).
-/
import DocScribe.Proofs.Sweep
import DocScribe.Proofs.WindowsEndings

namespace DocScribe
namespace Text

section words
variable {a b t : Text} {c : Char}

/-! ## Blanks between words -/

theorem words_append_blank (hc : isBlank c = true) (a b : Text) : words (a ++ c :: b) = words a ++ words b := by
  rw [words, pieces_append_cons hc, List.filter_append]
  rfl

theorem words_blank_append (ha : Blank a) (b : Text) : words (a ++ b) = words b := by
  induction a with
  | nil => rfl
  | cons c a ih =>
    have hskip : words (c :: (a ++ b)) = words (a ++ b) := words_append_blank (ha c List.mem_cons_self) [] _
    rw [List.cons_append, hskip]
    exact ih fun d hd => ha d (List.mem_cons_of_mem c hd)

theorem words_of_blank (ht : Blank t) : words t = [] := by
  simpa [words_nil] using words_blank_append ht []

theorem words_append_of_blank (hb : Blank b) (a : Text) : words (a ++ b) = words a := by
  cases b with
  | nil => rw [List.append_nil]
  | cons c b =>
    rw [words_append_blank (hb c List.mem_cons_self), words_of_blank fun d hd => hb d (List.mem_cons_of_mem c hd),
      List.append_nil]

theorem words_of_marked (hne : t ≠ []) (h : ∀ c ∈ t, isBlank c = false) : words t = [t] := by
  rw [words, pieces_eq_self h, List.filter_cons_of_pos (by simpa using hne), List.filter_nil]

theorem words_of_mem_words {w : Text} (h : w ∈ words t) : words w = [w] := by
  obtain ⟨hne, hmarked⟩ := marked_of_mem_words h
  exact words_of_marked hne hmarked

/-! ## The last word -/

/-- A text that is empty or ends with a blank. -/
def EndsBlank (t : Text) : Prop := t = [] ∨ ∃ init z, t = init ++ [z] ∧ isBlank z = true

theorem exists_lastWord (t : Text) : ∃ a w, t = a ++ w ∧ EndsBlank a ∧ ∀ c ∈ w, isBlank c = false := by
  induction t with
  | nil => exact ⟨[], [], rfl, .inl rfl, by simp⟩
  | cons c t ih =>
    obtain ⟨a, w, rfl, ha, hw⟩ := ih
    rcases ha with rfl | ⟨init, z, rfl, hz⟩
    · by_cases hc : isBlank c = true
      · exact ⟨[c], w, rfl, .inr ⟨[], c, rfl, hc⟩, hw⟩
      · exact ⟨[], c :: w, rfl, .inl rfl, List.forall_mem_cons.2 ⟨Bool.eq_false_iff.2 hc, hw⟩⟩
    · exact ⟨c :: init ++ [z], w, by simp, .inr ⟨c :: init, z, rfl, hz⟩, hw⟩

theorem words_append_marked {w : Text} (ha : EndsBlank a) (hne : w ≠ []) (hw : ∀ c ∈ w, isBlank c = false) :
    words (a ++ w) = words a ++ [w] := by
  rcases ha with rfl | ⟨init, z, rfl, hz⟩
  · exact words_of_marked hne hw
  · have hend : words (init ++ [z]) = words init := words_append_of_blank (by simpa [Blank] using hz) init
    rw [List.append_assoc, List.singleton_append, words_append_blank hz, words_of_marked hne hw, hend]

/-- A mark behind another is part of the last word. -/
theorem words_concat_mark (hc : isBlank c = false) (ht : EndsMarked t) :
    words (t ++ [c]) = (words t).dropLast ++ (words t).getLast?.toList.map (· ++ [c]) := by
  obtain ⟨a, w, rfl, ha, hw⟩ := exists_lastWord t
  have hne : w ≠ [] := by
    rintro rfl
    obtain ⟨init, z, heq, hz⟩ := ht
    rcases ha with rfl | ⟨init', z', rfl, hz'⟩
    · simp at heq
    · rw [List.append_nil] at heq
      cases (List.append_inj' heq rfl).2
      exact absurd hz' (Bool.eq_false_iff.1 hz)
  have hmarked : ∀ d ∈ w ++ [c], isBlank d = false :=
    List.forall_mem_append.2 ⟨hw, List.forall_mem_singleton.2 hc⟩
  rw [List.append_assoc, words_append_marked ha (by simp) hmarked, words_append_marked ha hne hw]
  simp

/-! ## Trimming -/

theorem exists_blank_trimStart (t : Text) : ∃ b, Blank b ∧ t = b ++ trimStart t :=
  ⟨t.takeWhile isBlank, blank_takeWhile t, List.takeWhile_append_dropWhile.symm⟩

theorem exists_blank_trimEnd (t : Text) : ∃ b, Blank b ∧ t = trimEnd t ++ b := by
  obtain ⟨b, hb, hcut⟩ := exists_blank_trimStart t.reverse
  refine ⟨b.reverse, fun c hc => hb c (List.mem_reverse.1 hc), ?_⟩
  simpa [trimEnd, trimEndBy, trimStart] using congrArg List.reverse hcut

theorem trim_eq (t : Text) : trim t = trimEnd (trimStart t) := rfl

theorem words_trim (t : Text) : words (trim t) = words t := by
  obtain ⟨lead, hlead, hstart⟩ := exists_blank_trimStart t
  obtain ⟨tail, htail, hend⟩ := exists_blank_trimEnd (trimStart t)
  calc words (trim t) = words (trim t ++ tail) := (words_append_of_blank htail _).symm
    _ = words (lead ++ (trim t ++ tail)) := (words_blank_append hlead _).symm
    _ = words t := by rw [trim_eq, ← hend, ← hstart]

theorem mem_of_mem_trim (h : c ∈ trim t) : c ∈ t := by
  obtain ⟨lead, -, hstart⟩ := exists_blank_trimStart t
  obtain ⟨tail, -, hend⟩ := exists_blank_trimEnd (trimStart t)
  rw [hstart, hend]
  exact List.mem_append_right _ (List.mem_append_left _ h)

/-- A text without blanks at its ends. -/
structure Trimmed (t : Text) : Prop where
  head : ∀ c ∈ t.head?, isBlank c = false
  last : ∀ c ∈ t.getLast?, isBlank c = false

theorem head_dropWhile {p : Char → Bool} (h : c ∈ (t.dropWhile p).head?) : p c = false := by
  have := List.head?_dropWhile_not p t
  rwa [Option.mem_def.1 h] at this

theorem trimmed_trim (t : Text) : Trimmed (trim t) := by
  have hlast : (trim t).getLast? = ((trimStart t).reverse.dropWhile isBlank).head? := by
    rw [trim_eq, trimEnd, trimEndBy, List.getLast?_reverse]
  refine ⟨fun c hc => ?_, fun c hc => head_dropWhile (hlast ▸ hc)⟩
  obtain ⟨b, -, hcut⟩ := exists_blank_trimEnd (trimStart t)
  refine head_dropWhile (t := t) (p := isBlank) ?_
  rw [trim_eq] at hc
  rw [← trimStart, hcut, List.head?_append, Option.mem_def.1 hc]
  rfl

theorem dropWhile_eq_of_head {p : Char → Bool} (h : ∀ c ∈ t.head?, p c = false) : t.dropWhile p = t := by
  cases t with
  | nil => rfl
  | cons c t => exact List.dropWhile_cons_of_neg (by simp [h c rfl])

theorem Trimmed.trim_eq (h : Trimmed t) : trim t = t := by
  have hlast : ∀ c ∈ t.reverse.head?, isBlank c = false := by simpa using h.last
  rw [Text.trim_eq, trimStart, dropWhile_eq_of_head h.head, trimEnd, trimEndBy, dropWhile_eq_of_head hlast,
    List.reverse_reverse]

theorem Trimmed.endsMarked (h : Trimmed t) (hne : t ≠ []) : EndsMarked t := by
  obtain ⟨init, z, rfl⟩ := List.eq_nil_or_concat'  t |>.resolve_left hne
  exact ⟨init, z, rfl, h.last z (by simp)⟩

/-! ## Rows of texts -/

theorem join_concat {ls : List Text} (hne : ls ≠ []) (separator last : Text) :
    join separator (ls ++ [last]) = join separator ls ++ (separator ++ last) := by
  induction ls with
  | nil => exact absurd rfl hne
  | cons l ls ih =>
    cases ls with
    | nil => simp [join, List.intercalate_cons_cons]
    | cons l' ls =>
      rw [List.cons_append, List.cons_append, join_cons_cons, join_cons_cons, ← List.cons_append, ih (by simp)]
      simp

theorem words_join {separator : Text} (hne : separator ≠ []) (h : Blank separator) (ls : List Text) :
    words (join separator ls) = ls.flatMap words := by
  obtain ⟨c, rest, rfl⟩ := List.exists_cons_of_ne_nil hne
  have hrest : Blank rest := fun d hd => h d (List.mem_cons_of_mem c hd)
  induction ls with
  | nil => rfl
  | cons l ls ih =>
    cases ls with
    | nil => simp [join]
    | cons l' ls =>
      rw [join_cons_cons, List.cons_append, words_append_blank (h c List.mem_cons_self), words_blank_append hrest, ih]
      exact List.flatMap_cons.symm

theorem words_joinLines (ls : List Text) : words (joinLines ls) = ls.flatMap words :=
  words_join (by simp) (by decide) ls

/-- The words of a line of words. -/
theorem words_line {row : List Text} (h : ∀ w ∈ row, w ∈ words t) : words (join [' '] row) = row := by
  rw [words_join (by simp) (by decide)]
  refine (List.flatMap_congr fun w hw => words_of_mem_words (h w hw)).trans ?_
  simp

/-- The first part of a separator ends every text but the last. -/
theorem join_append (a b : Text) (ls : List Text) (last : Text) :
    join (a ++ b) (ls ++ [last]) = join b (ls.map (· ++ a) ++ [last]) := by
  induction ls with
  | nil => simp [join]
  | cons l ls ih =>
    obtain ⟨l', rest, hrest⟩ := List.exists_cons_of_ne_nil (l := ls ++ [last]) (by simp)
    obtain ⟨m, more, hmore⟩ := List.exists_cons_of_ne_nil (l := ls.map (· ++ a) ++ [last]) (by simp)
    rw [List.cons_append, hrest, join_cons_cons, ← hrest, ih, List.map_cons, List.cons_append, hmore,
      join_cons_cons]
    simp

end words
end Text

/-- Words set anew on lines are the same words. -/
theorem words_wrapWords (t : Text) (n : Nat) : Text.words (wrapWords t n) = Text.words t := by
  calc Text.words (wrapWords t n)
      = (rows n (Text.words t)).flatMap fun row => Text.words (Text.join [' '] row) := by
        rw [wrapWords, Text.words_joinLines, List.flatMap_map]
    _ = (rows n (Text.words t)).flatMap id :=
        List.flatMap_congr fun row hrow => Text.words_line (mem_words_of_mem_rows hrow)
    _ = Text.words t := by rw [List.flatMap_id, flatten_rows]

end DocScribe
