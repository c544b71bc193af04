/-
The numbers of lines.

The table of a text finds the line of an offset by halving. Counted in bytes, it
is one more than the line feeds before the offset, wherever the offset stands
(`LineTable.lineOf_counts_feeds`).

So lines are counted from one, and every run of inserted lines starts at line
one or below. Tracing a line back therefore takes away fewer lines than there
are, whatever blocks a history was recorded for, in whatever order
(`LineHistory.recorded_in_range`).
-/
import DocScribe.Proofs.Signatures
import DocScribe.Text.Bytes
import Mathlib.Data.Nat.Basic
import Mathlib.Order.Monotone.Defs

namespace DocScribe

/-! ## Counting bytes -/

namespace Text

/-- The byte of a line feed is a byte of no other character. -/
theorem feed_not_mem_encoded {c : Char} (hc : c ≠ '\n') : 0x0A ∉ String.utf8EncodeChar c := by
  have hcode : c.val.toNat ≠ 10 := fun h => hc (Char.ext (UInt32.toNat_inj.1 h))
  have hbyte {n : Nat} (h : n % 256 ≠ 10) : (0x0A : UInt8) ≠ UInt8.ofNat n := fun heq => by
    have := congrArg UInt8.toNat heq
    rw [UInt8.toNat_ofNat'] at this
    exact h this.symm
  unfold String.utf8EncodeChar
  dsimp only
  generalize c.val.toNat = v at hcode
  split
  · rw [List.mem_singleton]
    exact hbyte (by omega)
  -- the bytes of a longer form are 0x80 or more
  split
  · simp only [List.mem_cons, List.not_mem_nil, or_false, not_or]
    exact ⟨hbyte (by omega), hbyte (by omega)⟩
  split
  · simp only [List.mem_cons, List.not_mem_nil, or_false, not_or]
    exact ⟨hbyte (by omega), hbyte (by omega), hbyte (by omega)⟩
  · simp only [List.mem_cons, List.not_mem_nil, or_false, not_or]
    exact ⟨hbyte (by omega), hbyte (by omega), hbyte (by omega), hbyte (by omega)⟩

/-- The line feeds before an offset are the bytes of line feeds before it, also
where the offset cuts a character in two. -/
theorem count_take_bytes (t : Text) (offset : Nat) : ((bytes t).take offset).count 0x0A = feedsBefore t offset := by
  induction t generalizing offset with
  | nil => rw [bytes, List.flatMap_nil, List.take_nil, feedsBefore, List.count_nil]
  | cons c t ih =>
    have hbytes : bytes (c :: t) = String.utf8EncodeChar c ++ bytes t := rfl
    rw [hbytes, List.take_append, String.length_utf8EncodeChar, List.count_append, ih, feedsBefore]
    by_cases hc : c = '\n'
    · subst hc
      have hfeed : String.utf8EncodeChar '\n' = [0x0A] := by decide
      cases offset with
      | zero => simp [LineTable.feedsBefore_zero]
      | succ offset => simp [hfeed]
    · have hnone : ((String.utf8EncodeChar c).take offset).count 0x0A = 0 :=
        List.count_eq_zero.2 fun h => feed_not_mem_encoded hc (List.mem_of_mem_take h)
      rw [hnone, if_neg hc]
      split
      · next hzero => rw [hzero, Nat.zero_sub, LineTable.feedsBefore_zero]
      · rfl

end Text

/-- **The line that a table finds is one more than the line feeds before the
offset**, counted in bytes, so it grows with the offset. -/
theorem LineTable.lineOf_counts_feeds (t : Text) :
    (∀ offset, (ofText t).lineOf offset = 1 + ((Text.bytes t).take offset).count 0x0A) ∧
      Monotone (ofText t).lineOf := by
  refine ⟨fun offset => ?_, fun a b hab => ?_⟩
  · rw [lineOf_ofText, Text.lineOf, Text.count_take_bytes]
  · rw [lineOf_ofText, lineOf_ofText]
    exact Text.lineOf_mono t hab

/-- The offset stands inside a character, at the line feed, and behind it. -/
example : [2, 3, 4, 9].map (LineTable.ofText ['é', 'x', '\n', 'y']).lineOf = [1, 1, 2, 2] := by decide

/-! ## Recording blocks -/

/-- A block has its place in a text: its anchor, at the end of the text if it lies
behind, stands between two characters. -/
def Block.Cuts (b : Block) (t : Text) : Prop := (t.cut? (min b.anchor t.size)).isSome

instance (b : Block) (t : Text) : Decidable (b.Cuts t) := inferInstanceAs (Decidable (_ = true))

theorem Block.Cuts.exists_point {b : Block} {t : Text} (h : b.Cuts t) : ∃ p, b.point? t = some p := by
  obtain ⟨halves, hcut⟩ := Option.isSome_iff_exists.1 h
  unfold anchor at hcut
  unfold point?
  cases hplacement : b.placement <;> rw [hplacement] at hcut <;> dsimp only at hcut ⊢ <;> rw [hcut] <;>
    exact ⟨_, rfl⟩

namespace LineHistory

variable {t : Text} {blocks : List Block} {history : LineHistory} {layer : Layer}

/-- Every run of a layer starts at line one or below. -/
def Numbered (layer : Layer) : Prop := ∀ run ∈ layer, 1 ≤ run.1

theorem exists_inserted? {b : Block} (h : b.Cuts t) :
    ∃ run, inserted? t (LineTable.ofText t) b = some run ∧ 1 ≤ run.1 := by
  obtain ⟨p, hp⟩ := h.exists_point
  refine ⟨_, by rw [inserted?, hp]; rfl, ?_⟩
  dsimp only
  rw [LineTable.lineOf_ofText, Text.lineOf]
  omega

theorem exists_layer (h : ∀ b ∈ blocks, b.Cuts t) :
    ∃ layer, blocks.mapM (inserted? t (LineTable.ofText t)) = some layer ∧ Numbered layer := by
  induction blocks with
  | nil => exact ⟨[], rfl, by simp [Numbered]⟩
  | cons b bs ih =>
    obtain ⟨hb, hbs⟩ := List.forall_mem_cons.1 h
    obtain ⟨run, hrun, hfirst⟩ := exists_inserted? hb
    obtain ⟨layer, hlayer, hnumbered⟩ := ih hbs
    exact ⟨run :: layer, by rw [List.mapM_cons, hrun, hlayer]; rfl, List.forall_mem_cons.2 ⟨hfirst, hnumbered⟩⟩

/-- Blocks that have their places can be recorded. -/
theorem record?_numbered (hblocks : ∀ b ∈ blocks, b.Cuts t) (h : ∀ layer ∈ history.layers, Numbered layer) :
    ∃ history', history.record? t blocks = some history' ∧ ∀ layer ∈ history'.layers, Numbered layer := by
  obtain ⟨layer, hlayer, hnumbered⟩ := exists_layer hblocks
  refine ⟨_, by rw [record?, hlayer]; rfl, List.forall_mem_cons.2 ⟨fun run hrun => ?_, h⟩⟩
  exact hnumbered run ((sorted_perm leInserted layer).mem_iff.1 hrun)

/-- A history with some rounds more, each with the text that its blocks are put
into. -/
def recordAll? (h : LineHistory) (rounds : List (Text × List Block)) : Option LineHistory :=
  rounds.foldlM (fun (h : LineHistory) r => h.record? r.1 r.2) h

theorem recordAll?_numbered {rounds : List (Text × List Block)} (hrounds : ∀ r ∈ rounds, ∀ b ∈ r.2, b.Cuts r.1)
    (h : ∀ layer ∈ history.layers, Numbered layer) :
    ∃ history', history.recordAll? rounds = some history' ∧ ∀ layer ∈ history'.layers, Numbered layer := by
  induction rounds generalizing history with
  | nil => exact ⟨history, rfl, h⟩
  | cons r rounds ih =>
    obtain ⟨hr, hrounds⟩ := List.forall_mem_cons.1 hrounds
    obtain ⟨next, hnext, hnumbered⟩ := record?_numbered hr h
    obtain ⟨history', hlater, hnumbered'⟩ := ih hrounds hnumbered
    exact ⟨history', by rw [recordAll?, List.foldlM_cons, hnext]; exact hlater, hnumbered'⟩

/-! ## Tracing a line back -/

/-- The line that a line was before one round; none when more lines are taken
away than there are. -/
def lineBefore? (layer : Layer) (line : Nat) : Option Nat :=
  if passedLines line 0 layer ≤ line then some (line - passedLines line 0 layer) else none

/-- The line that a line was before all rounds; none when a round takes away more
lines than there are. -/
def initialLine? (h : LineHistory) (line : Nat) : Option Nat :=
  h.layers.foldlM (fun line layer => lineBefore? layer line) line

/-- A run is passed only by a line behind its end, so what was passed stays below
the line. -/
theorem passedLines_lt (h : Numbered layer) {line passed : Nat} (hpassed : passed = 0 ∨ passed < line) :
    passedLines line passed layer = 0 ∨ passedLines line passed layer < line := by
  induction layer generalizing passed with
  | nil => exact hpassed
  | cons run layer ih =>
    obtain ⟨first, count⟩ := run
    obtain ⟨hfirst, hlayer⟩ := List.forall_mem_cons.1 h
    rw [passedLines]
    split
    · exact hpassed
    · exact ih hlayer (.inr (by omega))

/-- One round back. -/
theorem lineBefore_in_range (h : Numbered layer) (line : Nat) :
    lineBefore? layer line = some (lineBefore layer line) ∧ lineBefore layer line ≤ line ∧
      min 1 line ≤ lineBefore layer line := by
  have hpassed : passedLines line 0 layer = 0 ∨ passedLines line 0 layer < line := passedLines_lt h (.inl rfl)
  unfold lineBefore? lineBefore
  rw [if_pos (by omega)]
  exact ⟨rfl, Nat.sub_le _ _, by omega⟩

/-- All rounds back. -/
theorem initialLine_in_range (h : ∀ layer ∈ history.layers, Numbered layer) (line : Nat) :
    history.initialLine? line = some (history.initialLine line) ∧ history.initialLine line ≤ line ∧
      min 1 line ≤ history.initialLine line := by
  obtain ⟨layers⟩ := history
  unfold initialLine? initialLine
  dsimp only at h ⊢
  induction layers generalizing line with
  | nil => exact ⟨rfl, Nat.le_refl _, Nat.min_le_right _ _⟩
  | cons layer layers ih =>
    obtain ⟨hlayer, hlayers⟩ := List.forall_mem_cons.1 h
    obtain ⟨hchecked, hle, hge⟩ := lineBefore_in_range hlayer line
    obtain ⟨hchecked', hle', hge'⟩ := ih (lineBefore layer line) hlayers
    rw [List.foldlM_cons, List.foldl_cons, hchecked]
    exact ⟨hchecked', Nat.le_trans hle' hle, by omega⟩

/-- **Tracing a line back stays in range**: blocks that have their places can be
recorded, round after round and in any order, and then no round takes away more
lines than there are, a line is traced back to itself or one above, and never
above the first. -/
theorem recorded_in_range {rounds : List (Text × List Block)} (hrounds : ∀ r ∈ rounds, ∀ b ∈ r.2, b.Cuts r.1) :
    ∃ history, ({} : LineHistory).recordAll? rounds = some history ∧
      ∀ line, history.initialLine? line = some (history.initialLine line) ∧
        history.initialLine line ≤ line ∧ (1 ≤ line → 1 ≤ history.initialLine line) := by
  have hnone : ∀ layer ∈ ({} : LineHistory).layers, Numbered layer := by simp
  obtain ⟨history, hrecorded, hnumbered⟩ := recordAll?_numbered hrounds hnone
  refine ⟨history, hrecorded, fun line => ?_⟩
  obtain ⟨hchecked, hle, hge⟩ := initialLine_in_range hnumbered line
  exact ⟨hchecked, hle, fun hline => by omega⟩

/-! Blocks as no scan would give them: out of order, two at one line, one without
lines, one behind the end of the text and one behind its open last line. -/

namespace OutOfOrder

def block (text : Text) (placement : Placement) (offset : Nat) : Block :=
  { text, start := offset, stop := offset, placement, withinScope := false }

def rounds : List (Text × List Block) :=
  [("a\nb", [block "z\n" .after 3, block "" .before 9, block "x\ny\n" .before 1, block "w\n" .before 0]),
    ("é\n", [block "v\n" .after 0])]

theorem recorded_in_range_rounds :
    (∀ r ∈ rounds, ∀ b ∈ r.2, b.Cuts r.1) ∧
      ∃ history, ({} : LineHistory).recordAll? rounds = some history ∧
        history.layers = [[(2, 1)], [(1, 1), (1, 2), (2, 0), (3, 1)]] ∧
        (List.range 9).map history.initialLine = [0, 1, 1, 1, 2, 1, 2, 3, 3] ∧
        ∀ line, history.initialLine? line = some (history.initialLine line) ∧
          history.initialLine line ≤ line ∧ (1 ≤ line → 1 ≤ history.initialLine line) := by
  have hcuts : ∀ r ∈ rounds, ∀ b ∈ r.2, b.Cuts r.1 := by decide
  obtain ⟨history, hrecorded, hrange⟩ := recorded_in_range hcuts
  have hlayers : history.layers = [[(2, 1)], [(1, 1), (1, 2), (2, 0), (3, 1)]] := by
    have hhistory := congrArg (Option.map LineHistory.layers) hrecorded
    exact (Option.some.inj (hhistory.symm.trans (by decide)))
  refine ⟨hcuts, history, hrecorded, hlayers, ?_, hrange⟩
  obtain ⟨layers⟩ := history
  cases hlayers
  decide

end OutOfOrder

end LineHistory
end DocScribe
