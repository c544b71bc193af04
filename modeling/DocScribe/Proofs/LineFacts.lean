/-
Lines by counting line feeds.

The line of an offset that cuts a text is one more than the line feeds before
the cut (`Text.lineOf_append`), it grows with the offset (`Text.lineOf_mono`),
and the start of a line parts the offsets of the lines above from the others
(`Text.lineStart_le_iff`). The two ways to look for the nearest line feed,
backwards and forwards, are stated by what they cut off.
-/
import DocScribe.Proofs.Matches
import DocScribe.Splice.LineHistory

namespace DocScribe
namespace Text

/-! ## Parts -/

theorem dropLead?_eq_some {lead t rest : Text} : dropLead? lead t = some rest ↔ t = lead ++ rest := by
  induction lead generalizing t with
  | nil => simp [dropLead?]
  | cons p ps ih =>
    cases t with
    | nil => simp [dropLead?]
    | cons c t =>
      simp only [dropLead?, List.cons_append, List.cons.injEq]
      split
      · next h => rw [ih, h]; simp
      · next h => simp [Ne.symm h]

theorem startsWith_iff {t lead : Text} : startsWith t lead = true ↔ ∃ rest, t = lead ++ rest := by
  simp only [startsWith, Option.isSome_iff_exists, dropLead?_eq_some]

theorem endsWith_iff {t tail : Text} : endsWith t tail = true ↔ ∃ head, t = head ++ tail := by
  simp only [endsWith, dropTail?, Option.isSome_map, Option.isSome_iff_exists, dropLead?_eq_some,
    List.reverse_eq_append_iff, List.reverse_reverse]
  constructor
  · rintro ⟨rest, h⟩
    exact ⟨rest.reverse, h⟩
  · rintro ⟨head, h⟩
    exact ⟨head.reverse, by rw [List.reverse_reverse, h]⟩

theorem holds_iff {part t : Text} : holds part t = true ↔ ∃ head tail, t = head ++ (part ++ tail) := by
  induction t with
  | nil =>
    simp only [holds, List.isEmpty_iff]
    constructor
    · rintro rfl
      exact ⟨[], [], rfl⟩
    · rintro ⟨head, tail, h⟩
      simp_all
  | cons c t ih =>
    simp only [holds, Bool.or_eq_true, startsWith_iff, ih]
    constructor
    · rintro (⟨tail, h⟩ | ⟨head, tail, rfl⟩)
      · exact ⟨[], tail, h⟩
      · exact ⟨c :: head, tail, rfl⟩
    · rintro ⟨head, tail, h⟩
      cases head with
      | nil => exact .inl ⟨tail, h⟩
      | cons d head => exact .inr ⟨head, tail, (List.cons.inj h).2⟩

theorem pieces_ne_nil (isMark : Char → Bool) (t : Text) : pieces isMark t ≠ [] := by
  cases t with
  | nil => simp [pieces]
  | cons c t =>
    simp only [pieces]
    split
    · simp
    · split <;> simp

/-- A mark parts the pieces before it from those behind it. -/
theorem pieces_append_cons {isMark : Char → Bool} {c : Char} (h : isMark c = true) (a b : Text) :
    pieces isMark (a ++ c :: b) = pieces isMark a ++ pieces isMark b := by
  induction a with
  | nil => simp [pieces, h]
  | cons d a ih =>
    cases hd : isMark d with
    | true => simp [pieces, hd, ih]
    | false =>
      obtain ⟨p, ps, hp⟩ := List.exists_cons_of_ne_nil (pieces_ne_nil isMark a)
      simp [pieces, hd, ih, hp]

/-- A text without a mark is one piece. -/
theorem pieces_eq_self {isMark : Char → Bool} {l : Text} (h : ∀ c ∈ l, isMark c = false) : pieces isMark l = [l] := by
  induction l with
  | nil => rfl
  | cons d l ih =>
    rw [pieces, if_neg (by simp [h d List.mem_cons_self]), ih fun e he => h e (List.mem_cons_of_mem d he)]

theorem pieces_of_not_mem {c : Char} {l : Text} (h : c ∉ l) : pieces (· == c) l = [l] := by
  refine pieces_eq_self fun d hd => ?_
  rw [beq_eq_false_iff_ne]
  rintro rfl
  exact h hd

theorem join_cons_cons (separator l l' : Text) (ls : List Text) :
    join separator (l :: l' :: ls) = l ++ (separator ++ join separator (l' :: ls)) := by
  rw [join, List.intercalate_cons_cons, List.append_assoc]
  rfl

/-- Lines that were joined are taken apart again, each with its own line
feeds. -/
theorem segments_joinLines_flatMap {ls : List Text} (hne : ls ≠ []) :
    segments (joinLines ls) = ls.flatMap segments := by
  induction ls with
  | nil => exact absurd rfl hne
  | cons l ls ih =>
    cases ls with
    | nil => simp [joinLines, join]
    | cons l' ls =>
      rw [List.flatMap_cons, ← ih (by simp), joinLines, join_cons_cons]
      exact pieces_append_cons (by decide) l _

/-! ## Lines -/

/-- How many line feeds a text has. -/
def feeds (t : Text) : Nat := t.count '\n'

@[simp] theorem feeds_nil : feeds [] = 0 := rfl

@[simp] theorem feeds_append (a b : Text) : feeds (a ++ b) = feeds a + feeds b := List.count_append

@[simp] theorem feeds_cons_feed (t : Text) : feeds ('\n' :: t) = feeds t + 1 := List.count_cons_self

theorem feeds_cons (c : Char) (t : Text) : feeds (c :: t) = (if c = '\n' then 1 else 0) + feeds t := by
  simp only [feeds, List.count_cons, beq_iff_eq]
  omega

theorem feeds_eq_zero {t : Text} : feeds t = 0 ↔ '\n' ∉ t := List.count_eq_zero

theorem feedsBefore_append (a b : Text) (n : Nat) :
    feedsBefore (a ++ b) (a.size + n) = feeds a + feedsBefore b n := by
  induction a with
  | nil => simp
  | cons c a ih =>
    have hc := c.utf8Size_pos
    have hne : c.utf8Size + size a + n ≠ 0 := by omega
    have hsub : c.utf8Size + size a + n - c.utf8Size = size a + n := by omega
    simp only [List.cons_append, size_cons, feedsBefore, hne, if_false, hsub, ih, feeds_cons]
    omega

theorem feedsBefore_mono (t : Text) : ∀ {m n : Nat}, m ≤ n → feedsBefore t m ≤ feedsBefore t n := by
  induction t with
  | nil => intro m n _; simp [feedsBefore]
  | cons c t ih =>
    intro m n hmn
    simp only [feedsBefore]
    by_cases hm : m = 0
    · simp [hm]
    · have hn : n ≠ 0 := by omega
      have := ih (m := m - c.utf8Size) (n := n - c.utf8Size) (by omega)
      simp only [hm, hn, if_false]
      omega

theorem feedsBefore_le_feeds (t : Text) : ∀ n : Nat, feedsBefore t n ≤ feeds t := by
  induction t with
  | nil => intro n; simp [feedsBefore]
  | cons c t ih =>
    intro n
    have := ih (n - c.utf8Size)
    simp only [feedsBefore, feeds_cons]
    split <;> omega

/-- The line of an offset that cuts a text. -/
theorem lineOf_append (a b : Text) : lineOf (a ++ b) a.size = 1 + feeds a := by
  have h := feedsBefore_append a b 0
  rw [Nat.add_zero, LineTable.feedsBefore_zero] at h
  rw [lineOf, h, Nat.add_zero]

theorem lineOf_mono (t : Text) {m n : Nat} (h : m ≤ n) : lineOf t m ≤ lineOf t n :=
  Nat.add_le_add_left (feedsBefore_mono t h) 1

/-- A text that ends where a line starts. -/
def EndsLine (head : Text) : Prop := head = [] ∨ ∃ above, head = above ++ ['\n']

theorem EndsLine.feed (above : Text) : EndsLine (above ++ ['\n']) := .inr ⟨above, rfl⟩

theorem EndsLine.append {a b : Text} (ha : EndsLine a) (hb : EndsLine b) : EndsLine (a ++ b) := by
  rcases hb with rfl | ⟨b, rfl⟩
  · rwa [List.append_nil]
  · exact .inr ⟨a ++ b, by rw [List.append_assoc]⟩

theorem EndsLine.of_append {a b : Text} (h : EndsLine (a ++ b)) : EndsLine b := by
  rcases List.eq_nil_or_concat b with rfl | ⟨init, last, rfl⟩
  · exact .inl rfl
  · rw [List.concat_eq_append, ← List.append_assoc] at h
    rcases h with h | ⟨above, h⟩
    · simp at h
    · obtain ⟨-, hlast⟩ := List.append_inj' h rfl
      exact .inr ⟨init, by rw [List.concat_eq_append, hlast]⟩

/-- An offset lies behind the start of a line when its line does. -/
theorem lineStart_le_iff {head : Text} (h : EndsLine head) (tail : Text) (n : Nat) :
    head.size ≤ n ↔ lineOf (head ++ tail) head.size ≤ lineOf (head ++ tail) n := by
  refine ⟨lineOf_mono _, fun hle => ?_⟩
  rcases h with rfl | ⟨above, rfl⟩
  · exact Nat.zero_le _
  rw [lineOf_append, feeds_append, size_append] at *
  have hone : size ['\n'] = 1 := rfl
  have hfeed : feeds ['\n'] = 1 := rfl
  refine Nat.le_of_not_lt fun hlt => ?_
  have hbelow : lineOf (above ++ ['\n'] ++ tail) n ≤ lineOf (above ++ (['\n'] ++ tail)) above.size := by
    rw [List.append_assoc]
    exact lineOf_mono _ (by omega)
  rw [lineOf_append] at hbelow
  omega

/-! ## The nearest line feed -/

theorem exists_lastLine (t : Text) : ∃ head line, t = head ++ line ∧ EndsLine head ∧ '\n' ∉ line := by
  induction t with
  | nil => exact ⟨[], [], rfl, .inl rfl, by simp⟩
  | cons c t ih =>
    obtain ⟨head, line, rfl, hhead, hline⟩ := ih
    rcases hhead with rfl | ⟨above, rfl⟩
    · by_cases hc : c = '\n'
      · exact ⟨[c], line, rfl, .inr ⟨[], by rw [hc]; rfl⟩, hline⟩
      · exact ⟨[], c :: line, rfl, .inl rfl, by simp [hline, Ne.symm hc]⟩
    · exact ⟨c :: above ++ ['\n'], line, by simp, .inr ⟨c :: above, rfl⟩, hline⟩

theorem exists_firstLine (t : Text) :
    '\n' ∉ t ∨ ∃ line tail, t = line ++ '\n' :: tail ∧ '\n' ∉ line := by
  induction t with
  | nil => exact .inl (by simp)
  | cons c t ih =>
    by_cases hc : c = '\n'
    · exact .inr ⟨[], t, by rw [hc]; rfl, by simp⟩
    · rcases ih with h | ⟨line, tail, rfl, hline⟩
      · exact .inl (by simp [h, Ne.symm hc])
      · exact .inr ⟨c :: line, tail, rfl, by simp [hline, Ne.symm hc]⟩

theorem EndsLine.line (l : Text) {t : Text} (h : EndsLine t) : EndsLine (l ++ '\n' :: t) := by
  rcases h with rfl | ⟨above, rfl⟩
  · exact .feed l
  · exact .inr ⟨l ++ '\n' :: above, by simp⟩

/-- What holds of the empty text, and of a line in front of a text of which it
holds, holds of every text that ends where a line starts. -/
theorem EndsLine.by_lines {motive : (t : Text) → EndsLine t → Prop} (nil : motive [] (.inl rfl))
    (line : ∀ l t (_ : '\n' ∉ l) (ht : EndsLine t), motive t ht → motive (l ++ '\n' :: t) (ht.line l))
    {t : Text} (h : EndsLine t) : motive t h := by
  obtain ⟨n, hn⟩ : ∃ n, t.length ≤ n := ⟨_, Nat.le_refl _⟩
  induction n generalizing t with
  | zero =>
    obtain rfl : t = [] := List.eq_nil_of_length_eq_zero (by omega)
    exact nil
  | succ n ih =>
    rcases exists_firstLine t with hnone | ⟨l, rest, rfl, hl⟩
    · obtain rfl : t = [] := by
        rcases h with rfl | ⟨above, rfl⟩
        · rfl
        · simp at hnone
      exact nil
    · have hrest : EndsLine rest := by
        have hends : EndsLine ((l ++ ['\n']) ++ rest) := by simpa using h
        exact hends.of_append
      simp only [List.length_append, List.length_cons] at hn
      exact line l rest hl hrest (ih hrest (by omega))

theorem takeWhile_ne_feed {line : Text} (h : '\n' ∉ line) : line.takeWhile (· != '\n') = line := by
  induction line with
  | nil => rfl
  | cons c line ih =>
    simp only [List.mem_cons, not_or] at h
    simp [Ne.symm h.1, ih h.2]

theorem takeWhile_ne_feed_append {line : Text} (h : '\n' ∉ line) (rest : Text) :
    (line ++ '\n' :: rest).takeWhile (· != '\n') = line := by
  induction line with
  | nil => simp
  | cons c line ih =>
    simp only [List.mem_cons, not_or] at h
    simp [Ne.symm h.1, ih h.2]

theorem lastSegment_append {head line : Text} (hhead : EndsLine head) (h : '\n' ∉ line) :
    lastSegment (head ++ line) = line := by
  have hrev : '\n' ∉ line.reverse := by simpa using h
  rcases hhead with rfl | ⟨above, rfl⟩
  · rw [lastSegment, List.nil_append, takeWhile_ne_feed hrev, List.reverse_reverse]
  · have hflip : (above ++ ['\n'] ++ line).reverse = line.reverse ++ '\n' :: above.reverse := by simp
    rw [lastSegment, hflip, takeWhile_ne_feed_append hrev, List.reverse_reverse]

end Text

namespace Block

theorem splitLastLine_append {head line : Text} (hhead : Text.EndsLine head) (h : '\n' ∉ line) :
    splitLastLine (head ++ line) = (head, line) := by
  simp [splitLastLine, Text.lastSegment_append hhead h]

theorem splitFirstLine?_append {line tail : Text} (h : '\n' ∉ line) :
    splitFirstLine? (line ++ '\n' :: tail) = some (line ++ ['\n'], tail) := by
  induction line with
  | nil => simp [splitFirstLine?]
  | cons c line ih =>
    simp only [List.mem_cons, not_or] at h
    simp [splitFirstLine?, Ne.symm h.1, ih h.2]

theorem splitFirstLine?_eq_none {t : Text} (h : '\n' ∉ t) : splitFirstLine? t = none := by
  induction t with
  | nil => rfl
  | cons c t ih =>
    simp only [List.mem_cons, not_or] at h
    simp [splitFirstLine?, Ne.symm h.1, ih h.2]

/-! ## The point of a block -/

theorem point?_before {b : Block} {above line rest : Text} (hb : b.placement = .before)
    (ho : b.start = (above ++ line).size) (habove : Text.EndsLine above) (hline : '\n' ∉ line) :
    b.point? (above ++ line ++ rest) = some ⟨above, line ++ rest, false⟩ := by
  have hmin : min b.start (above ++ line ++ rest).size = (above ++ line).size := by
    rw [ho, Text.size_append (above ++ line) rest]
    omega
  simp only [point?, hb, hmin, Text.cut?_size_append, Option.map_some, splitLastLine_append habove hline]

theorem point?_after {b : Block} {head line tail : Text} (hb : b.placement = .after)
    (ho : b.stop = head.size) (hline : '\n' ∉ line) :
    b.point? (head ++ (line ++ '\n' :: tail)) = some ⟨head ++ (line ++ ['\n']), tail, false⟩ := by
  have hmin : min b.stop (head ++ (line ++ '\n' :: tail)).size = head.size := by
    rw [ho, Text.size_append head]
    omega
  simp only [point?, hb, hmin, Text.cut?_size_append, Option.map_some, splitFirstLine?_append hline]

theorem point?_fresh {b : Block} {head rest : Text} (hb : b.placement = .after)
    (ho : b.stop = head.size) (hrest : '\n' ∉ rest) :
    b.point? (head ++ rest) = some ⟨head ++ rest, [], true⟩ := by
  have hmin : min b.stop (head ++ rest).size = head.size := by
    rw [ho, Text.size_append]
    omega
  simp only [point?, hb, hmin, Text.cut?_size_append, Option.map_some, splitFirstLine?_eq_none hrest]

/-- The point of a block is the start of a line, or the end of a text whose
last line has to be ended first. -/
theorem point?_cases {b : Block} {t : Text} {p : Point} (h : b.point? t = some p) :
    p.head ++ p.tail = t ∧ (p.fresh = false ∧ Text.EndsLine p.head ∨ p.fresh = true ∧ p.tail = []) := by
  unfold point? at h
  split at h
  · obtain ⟨⟨before, after⟩, hcut, rfl⟩ := Option.map_eq_some_iff.1 h
    obtain ⟨rfl, -⟩ := Text.append_of_cut? hcut
    obtain ⟨head, line, rfl, hhead, hline⟩ := Text.exists_lastLine before
    simp [splitLastLine_append hhead hline, hhead]
  · obtain ⟨⟨before, after⟩, hcut, rfl⟩ := Option.map_eq_some_iff.1 h
    obtain ⟨rfl, -⟩ := Text.append_of_cut? hcut
    rcases Text.exists_firstLine after with hnone | ⟨line, tail, rfl, hline⟩
    · simp [splitFirstLine?_eq_none hnone]
    · have hhead : Text.EndsLine (before ++ (line ++ ['\n'])) := .inr ⟨before ++ line, by simp⟩
      simp [splitFirstLine?_append hline, hhead]

end Block
end DocScribe
