/-
Line endings.

The lines of a text whose last line ends are those of its parts
(`Text.lines_append`), and a line ending of Windows never lies astride the
start of a line (`Text.holds_crlf_append`).

A text has the line endings of Windows throughout (`Text.Windows`) when every
line feed follows a carriage return. Parts that meet where a line starts have
them exactly when both do (`Text.windows_append`).
-/
import DocScribe.Proofs.LineFacts

namespace DocScribe
namespace Text

/-- The line ending of Windows. -/
def crlf : Text := ['\r', '\n']

theorem dropReturn_return (l : Text) : dropReturn (l ++ ['\r']) = l := by
  simp [dropReturn, dropTail?, dropLead?]

theorem dropReturn_eq_self_iff {l : Text} : dropReturn l = l ↔ ∀ m, l ≠ m ++ ['\r'] := by
  constructor
  · rintro h m rfl
    rw [dropReturn_return] at h
    simpa using congrArg List.length h
  · intro h
    have hnone : dropTail? ['\r'] l = none := by
      rw [← Option.not_isSome_iff_eq_none]
      intro hsome
      obtain ⟨m, hm⟩ := endsWith_iff.1 hsome
      exact h m hm
    rw [dropReturn, hnone]
    rfl

/-- The lines of a text that starts with a line. -/
theorem lines_line {l : Text} (hl : '\n' ∉ l) (t : Text) : lines (l ++ '\n' :: t) = dropReturn l :: lines t := by
  obtain ⟨p, ps, hp⟩ := List.exists_cons_of_ne_nil (pieces_ne_nil (· == '\n') t)
  rw [lines, segments, pieces_append_cons (by decide), pieces_of_not_mem hl, lines, segments, hp]
  rfl

theorem lines_append {a : Text} (ha : EndsLine a) (b : Text) : lines (a ++ b) = lines a ++ lines b := by
  induction ha using EndsLine.by_lines with
  | nil => rfl
  | line l t hl _ ih => rw [List.append_assoc, List.cons_append, lines_line hl, ih, lines_line hl, List.cons_append]

/-- Where a line starts, a line ending of Windows is in front or behind. -/
theorem holds_crlf_append {a : Text} (ha : EndsLine a) (b : Text) :
    holds crlf (a ++ b) = true ↔ holds crlf a = true ∨ holds crlf b = true := by
  simp only [holds_iff]
  constructor
  · rintro ⟨head, tail, h⟩
    rcases List.append_eq_append_iff.1 h with ⟨m, -, hm⟩ | ⟨m, rfl, hm⟩
    · exact .inr ⟨m, tail, hm⟩
    · -- The line ending would lie astride the start of the line.
      match m with
      | [] => exact .inr ⟨[], tail, hm.symm⟩
      | [c] =>
        simp only [crlf, List.cons_append, List.nil_append, List.cons.injEq] at hm
        obtain ⟨rfl, rfl⟩ := hm
        rcases ha with hnil | ⟨above, habove⟩
        · simp at hnil
        · have hlast := (List.append_inj' habove rfl).2
          cases hlast
      | c :: d :: m =>
        simp only [crlf, List.cons_append, List.nil_append, List.cons.injEq] at hm
        obtain ⟨rfl, rfl, -⟩ := hm
        exact .inl ⟨head, m, rfl⟩
  · rintro (⟨head, tail, rfl⟩ | ⟨head, tail, rfl⟩)
    · exact ⟨head, tail ++ b, by simp⟩
    · exact ⟨a ++ head, tail, by simp⟩

theorem holds_crlf_line {l : Text} (hl : '\n' ∉ l) : holds crlf (l ++ ['\n']) = true ↔ dropReturn l ≠ l := by
  rw [Ne, dropReturn_eq_self_iff, holds_iff]
  simp only [Classical.not_forall, Classical.not_not]
  constructor
  · rintro ⟨head, tail, h⟩
    rcases List.eq_nil_or_concat tail with rfl | ⟨tail, last, rfl⟩
    · refine ⟨head, ?_⟩
      have hsplit : l ++ ['\n'] = (head ++ ['\r']) ++ ['\n'] := by simpa [crlf] using h
      exact (List.append_inj' hsplit rfl).1
    · have hsplit : l ++ ['\n'] = (head ++ ('\r' :: '\n' :: tail)) ++ [last] := by simpa [crlf] using h
      refine absurd ?_ hl
      rw [(List.append_inj' hsplit rfl).1]
      simp
  · rintro ⟨m, rfl⟩
    exact ⟨m, [], by simp [crlf]⟩

/-! ## Windows line endings throughout -/

/-- Every line feed follows a carriage return. -/
def Windows (t : Text) : Prop := ∀ above below, t = above ++ '\n' :: below → ∃ line, above = line ++ ['\r']

/-- The same by reading the text once; `afterReturn` tells that a carriage
return came before. -/
def feedsReturned (afterReturn : Bool) : Text → Bool
  | [] => true
  | c :: t => (c != '\n' || afterReturn) && feedsReturned (c == '\r') t

theorem feedsReturned_iff (head : Text) {t : Text} {afterReturn : Bool}
    (hhead : afterReturn = true ↔ ∃ line, head = line ++ ['\r']) :
    feedsReturned afterReturn t = true ↔
      ∀ above below, t = above ++ '\n' :: below → ∃ line, head ++ above = line ++ ['\r'] := by
  induction t generalizing head afterReturn with
  | nil => simp [feedsReturned]
  | cons c t ih =>
    have hnext : (c == '\r') = true ↔ ∃ line, head ++ [c] = line ++ ['\r'] := by
      constructor
      · intro h
        exact ⟨head, by rw [eq_of_beq h]⟩
      · rintro ⟨line, h⟩
        simpa using (List.append_inj' h rfl).2
    simp only [feedsReturned, Bool.and_eq_true, Bool.or_eq_true, bne_iff_ne, ih _ hnext]
    constructor
    · rintro ⟨hc, htail⟩ above below h
      cases above with
      | nil =>
        rcases hc with hc | hc
        · exact absurd (List.cons.inj h).1 hc
        · simpa using hhead.1 hc
      | cons d above =>
        simp only [List.cons_append, List.cons.injEq] at h
        obtain ⟨rfl, h⟩ := h
        simpa using htail above below h
    · intro h
      refine ⟨?_, fun above below ht => ?_⟩
      · by_cases hc : c = '\n'
        · exact .inr (hhead.2 (by simpa using h [] t (by rw [hc]; rfl)))
        · exact .inl hc
      · simpa using h (c :: above) below (by rw [ht]; rfl)

instance (t : Text) : Decidable t.Windows :=
  decidable_of_iff (feedsReturned false t = true) (feedsReturned_iff [] (by simp))

theorem windows_append {a : Text} (ha : EndsLine a) (b : Text) : Windows (a ++ b) ↔ Windows a ∧ Windows b := by
  constructor
  · intro h
    refine ⟨fun above below hcut => h above (below ++ b) (by rw [hcut]; simp), fun above below hcut => ?_⟩
    obtain ⟨line, hline⟩ := h (a ++ above) below (by rw [hcut]; simp)
    rcases List.eq_nil_or_concat above with rfl | ⟨above, last, rfl⟩
    · -- A carriage return would stand where a line starts.
      rw [List.append_nil] at hline
      rcases ha with rfl | ⟨above, rfl⟩
      · simp at hline
      · cases (List.append_inj' hline rfl).2
    · have hlast : (a ++ above) ++ [last] = line ++ ['\r'] := by simpa using hline
      obtain ⟨-, hreturn⟩ := List.append_inj' hlast rfl
      exact ⟨above, by simp [hreturn]⟩
  · rintro ⟨hwa, hwb⟩ above below h
    rcases List.append_eq_append_iff.1 h with ⟨m, rfl, hm⟩ | ⟨m, rfl, hm⟩
    · obtain ⟨line, rfl⟩ := hwb m below hm
      exact ⟨a ++ line, by simp⟩
    · cases m with
      | nil =>
        obtain ⟨line, hline⟩ := hwb [] below hm.symm
        simp at hline
      | cons d m =>
        obtain ⟨rfl, -⟩ := List.cons.inj hm
        exact hwa above m rfl

theorem windows_crlf_append (t b : Text) : Windows (t ++ (crlf ++ b)) ↔ Windows t ∧ Windows b := by
  have hends : EndsLine (t ++ crlf) := .inr ⟨t ++ ['\r'], by simp [crlf]⟩
  have hline : Windows (t ++ crlf) ↔ Windows t := by
    constructor
    · intro h above below hcut
      exact h above (below ++ crlf) (by rw [hcut]; simp)
    · intro h above below hcut
      rcases List.eq_nil_or_concat below with rfl | ⟨below, last, rfl⟩
      · have hcut : (t ++ ['\r']) ++ ['\n'] = above ++ ['\n'] := by simpa [crlf] using hcut
        exact ⟨t, (List.append_inj' hcut rfl).1.symm⟩
      · have hcut : (t ++ ['\r']) ++ ['\n'] = (above ++ '\n' :: below) ++ [last] := by simpa [crlf] using hcut
        have hinit := (List.append_inj' hcut rfl).1
        rcases List.eq_nil_or_concat below with rfl | ⟨below, last', rfl⟩
        · cases (List.append_inj' hinit rfl).2
        · have hinit : t ++ ['\r'] = (above ++ '\n' :: below) ++ [last'] := by simpa using hinit
          exact h above below (List.append_inj' hinit rfl).1
  rw [← List.append_assoc, windows_append hends, hline]

/-- A text that has a line feed and the line endings of Windows throughout
gives them to its blocks. -/
theorem Windows.lineEnding_eq {t : Text} (h : Windows t) (hfeed : '\n' ∈ t) : lineEnding t = crlf := by
  rcases exists_firstLine t with hnone | ⟨line, tail, rfl, hline⟩
  · exact absurd hfeed hnone
  · obtain ⟨l, rfl⟩ := h line tail rfl
    have hreturn : endsWith (l ++ ['\r']) ['\r'] = true := endsWith_iff.2 ⟨l, rfl⟩
    simp only [lineEnding, takeWhile_ne_feed_append hline, hreturn, Bool.and_true, List.contains_eq_mem, hfeed,
      decide_true, if_true]
    rfl

end Text

end DocScribe
