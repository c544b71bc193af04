/-
A review that changes nothing.

What is taken back from a review is the lines of the block up to the first
that reads as the end mark, each ended by a line feed (`Review.unwrap_wrap`).
So the block comes back as it was handed out exactly when it ends with a line
feed, has no Windows line ending and no line that reads as the end mark
(`Review.unwrap_wrap_eq_iff`). The start mark and the banner are looked for
only above the block: inside it they are lines like any other.
-/
import DocScribe.Block.Review
import DocScribe.Proofs.LineEndings

namespace DocScribe
namespace Review

open Text

/-- Lines, each ended by a line feed. -/
def ended (ls : List Text) : Text := (ls.map fun line => line ++ ['\n']).flatten

theorem ended_cons (l : Text) (ls : List Text) : ended (l :: ls) = l ++ '\n' :: ended ls := by
  simp [ended]

/-- Whether a line reads as the end mark. -/
def isEnd (line : Text) : Bool := trim line == endMark

/-- What stands between the marks: the block, the last line ended. -/
def body (b : Text) : Text := b ++ if endsWith b ['\n'] then [] else ['\n']

theorem endsLine_body (b : Text) : EndsLine (body b) := by
  unfold body
  split
  · next h =>
    obtain ⟨head, rfl⟩ := endsWith_iff.1 h
    rw [List.append_nil]
    exact .feed head
  · exact .feed b

/-- **The lines up to the first end mark come back.** -/
theorem unwrap_wrap (b : Text) : unwrap (wrap b) = ended ((lines (body b)).takeWhile fun l => !isEnd l) := by
  have hwrap : wrap b = banner ++ '\n' :: ([] ++ '\n' :: (startMark ++ '\n' :: (body b ++ (endMark ++ '\n' :: [])))) := by
    simp [wrap, body]
  have hlines : lines (wrap b) = banner :: [] :: startMark :: (lines (body b) ++ [endMark]) := by
    rw [hwrap, lines_line (by decide), lines_line (by simp), lines_line (by decide), lines_append (endsLine_body b),
      lines_line (by decide)]
    rfl
  have hbanner : (trim banner != startMark) = true := by decide
  have hnil : (trim [] != startMark) = true := by decide
  have hstart : (trim startMark != startMark) = false := by decide
  have hend : isEnd endMark = true := by decide
  have hbetween : between (lines (wrap b)) = (lines (body b)).takeWhile fun l => !isEnd l := by
    simp only [hlines, between, List.dropWhile_cons, hbanner, hnil, hstart, if_true, Bool.false_eq_true, if_false,
      List.drop_one, List.tail_cons]
    show List.takeWhile (fun l => !isEnd l) _ = _
    induction lines (body b) with
    | nil => simp [hend]
    | cons l ls ih => by_cases hl : isEnd l = true <;> simp [hl, ih]
  rw [unwrap, hbetween]
  rfl

/-- Lines that end come back as they were exactly when no carriage return is
dropped and no line reads as the end mark. -/
theorem ended_lines_eq_iff {b : Text} (hb : EndsLine b) :
    ended ((lines b).takeWhile fun l => !isEnd l) = b ↔
      holds crlf b = false ∧ ∀ l ∈ lines b, isEnd l = false := by
  induction hb using EndsLine.by_lines with
  | nil => simp [lines, segments, pieces, linesOfSegments, ended, holds, crlf]
  | line l t hl _ ih =>
    have hcut : l ++ '\n' :: t = (l ++ ['\n']) ++ t := by simp
    have hholds : holds crlf (l ++ '\n' :: t) = false ↔ dropReturn l = l ∧ holds crlf t = false := by
      rw [hcut, ← Bool.not_eq_true, holds_crlf_append (.feed l), holds_crlf_line hl]
      simp
    rw [lines_line hl, hholds]
    by_cases hend : isEnd (dropReturn l) = true
    · have hne : l ++ '\n' :: t ≠ [] := by simp
      simp [hend, ended, hne.symm]
    · rw [Bool.not_eq_true] at hend
      simp only [List.takeWhile_cons, hend, Bool.not_false, if_true, ended_cons, List.forall_mem_cons, true_and]
      constructor
      · intro h
        have hdrop : '\n' ∉ dropReturn l := by
          intro hmem
          by_cases hself : dropReturn l = l
          · exact hl (hself ▸ hmem)
          · rw [dropReturn_eq_self_iff] at hself
            simp only [Classical.not_forall, Classical.not_not] at hself
            obtain ⟨m, rfl⟩ := hself
            rw [dropReturn_return] at hmem
            exact hl (List.mem_append_left _ hmem)
        have hself := congrArg (List.takeWhile (· != '\n')) h
        rw [takeWhile_ne_feed_append hdrop, takeWhile_ne_feed_append hl] at hself
        have htail : ended ((lines t).takeWhile fun l => !isEnd l) = t := by
          rw [hself, List.append_cancel_left_eq] at h
          exact (List.cons.inj h).2
        exact ⟨⟨hself, (ih.1 htail).1⟩, (ih.1 htail).2⟩
      · rintro ⟨⟨hself, hcrlf⟩, hends⟩
        rw [hself, ih.2 ⟨hcrlf, hends⟩]

/-- A block that a review without changes gives back: it ends with a line feed,
has no line ending of Windows and no line that reads as the end mark. -/
structure Survives (b : Text) : Prop where
  ends : endsWith b ['\n'] = true
  plain : holds crlf b = false
  unmarked : ∀ l ∈ lines b, trim l ≠ endMark

/-- A line that is no end mark can be put in anywhere. -/
theorem Survives.insert {above below mark : Text} (habove : EndsLine above) (h : Survives (above ++ below))
    (hfeed : '\n' ∉ mark) (hreturn : '\r' ∉ mark) (hmark : trim mark ≠ endMark) :
    Survives (above ++ (mark ++ '\n' :: below)) := by
  have hself : dropReturn mark = mark := by
    rw [dropReturn_eq_self_iff]
    rintro m rfl
    simp at hreturn
  have hbelow : mark ++ '\n' :: below = (mark ++ ['\n']) ++ below := by simp
  obtain ⟨hends, hplain, hunmarked⟩ := h
  refine ⟨?_, ?_, ?_⟩
  · obtain ⟨head, hhead⟩ := endsWith_iff.1 hends
    rcases List.eq_nil_or_concat below with rfl | ⟨below, last, rfl⟩
    · exact endsWith_iff.2 ⟨above ++ mark, by simp⟩
    · have hlast : (above ++ below) ++ [last] = head ++ ['\n'] := by simpa using hhead
      obtain ⟨-, hfeed⟩ := List.append_inj' hlast rfl
      exact endsWith_iff.2 ⟨above ++ (mark ++ '\n' :: below), by simp [hfeed]⟩
  · rw [← Bool.not_eq_true, holds_crlf_append habove] at hplain ⊢
    rw [hbelow, holds_crlf_append (.feed mark), holds_crlf_line hfeed]
    simp only [not_or] at hplain ⊢
    exact ⟨hplain.1, by simp [hself], hplain.2⟩
  · rw [lines_append habove] at hunmarked ⊢
    rw [lines_line hfeed, hself]
    intro l hl
    simp only [List.mem_append, List.mem_cons] at hl
    rcases hl with hl | rfl | hl
    · exact hunmarked l (List.mem_append_left _ hl)
    · exact hmark
    · exact hunmarked l (List.mem_append_right _ hl)

theorem unwrap_wrap_eq_self_iff (b : Text) : unwrap (wrap b) = b ↔ Survives b := by
  have hsurvives : Survives b ↔ endsWith b ['\n'] = true ∧ holds crlf b = false ∧ ∀ l ∈ lines b, isEnd l = false := by
    simp only [isEnd, beq_eq_false_iff_ne]
    exact ⟨fun h => ⟨h.1, h.2, h.3⟩, fun h => ⟨h.1, h.2.1, h.2.2⟩⟩
  rw [hsurvives, unwrap_wrap]
  by_cases hends : endsWith b ['\n'] = true
  · have hbody : body b = b := by simp [body, hends]
    have hline : EndsLine b := hbody ▸ endsLine_body b
    rw [hbody, ended_lines_eq_iff hline]
    simp [hends]
  · simp only [hends, false_and, iff_false, Bool.false_eq_true]
    intro h
    -- Whatever comes back is empty or ends with a line feed, and the empty block comes back as a line.
    rcases List.eq_nil_or_concat ((lines (body b)).takeWhile fun l => !isEnd l) with hnil | ⟨ls, l, hls⟩
    · rw [hnil] at h
      have hb : b = [] := h.symm
      subst hb
      exact absurd hnil (by decide)
    · refine hends (endsWith_iff.2 ⟨ended ls ++ l, ?_⟩)
      rw [← h, hls]
      simp [ended]

/-- **A review without changes gives a block back exactly when the block ends
with a line feed, has no line ending of Windows and no line that reads as the
end mark.** Lines that read as the start mark or the banner do no harm. -/
theorem unwrap_wrap_eq_iff (b : Text) :
    (unwrap (wrap b) = b ↔
      endsWith b ['\n'] = true ∧ holds ['\r', '\n'] b = false ∧ ∀ line ∈ lines b, trim line ≠ endMark) ∧
    ∀ mark ∈ [startMark, banner], ∀ above below, EndsLine above → b = above ++ below → unwrap (wrap b) = b →
      unwrap (wrap (above ++ (mark ++ '\n' :: below))) = above ++ (mark ++ '\n' :: below) := by
  refine ⟨?_, ?_⟩
  · rw [unwrap_wrap_eq_self_iff]
    exact ⟨fun h => ⟨h.1, h.2, h.3⟩, fun h => ⟨h.1, h.2.1, h.2.2⟩⟩
  · rintro mark hmark above below habove rfl h
    rw [unwrap_wrap_eq_self_iff] at h ⊢
    have hplain : ∀ m ∈ [startMark, banner], '\n' ∉ m ∧ '\r' ∉ m ∧ trim m ≠ endMark := by decide
    obtain ⟨hfeed, hreturn, hend⟩ := hplain mark hmark
    exact h.insert habove hfeed hreturn hend

/-! A block with the start mark written into it. -/

namespace MarkedInside

def above : Text := ['"', '"', '"'] ++ ['\n']

def below : Text := "Doc.\n\"\"\"\n"

theorem unwrap_wrap_eq_iff_startMark :
    EndsLine above ∧ unwrap (wrap (above ++ below)) = above ++ below ∧
      unwrap (wrap (above ++ (startMark ++ '\n' :: below))) = above ++ (startMark ++ '\n' :: below) := by
  have habove : EndsLine above := .feed _
  have hself : unwrap (wrap (above ++ below)) = above ++ below :=
    (unwrap_wrap_eq_iff (above ++ below)).1.2 (by decide)
  exact ⟨habove, hself, (unwrap_wrap_eq_iff (above ++ below)).2 startMark (by simp) above below habove rfl hself⟩

end MarkedInside

end Review
end DocScribe
