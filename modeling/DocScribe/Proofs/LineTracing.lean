/-
Lines through rounds of insertions.

A line of a text is counted with its line feed (`Text.line?`). Putting one
block in pushes the lines from its own on down by its number of lines and
leaves every line as it is (`splice?_moves`); only a last line without a line
feed can gain one. A whole round pushes a line down by the blocks at that line
and above (`Stacked.moves`), and `LineHistory.lineBefore` takes back exactly
that (`lineBefore_push`).

`LineHistory.Traces` is what all rounds together keep: the lines of the first
text stand in the last one, in their order, and the history leads each of them
back to its number.
-/
import DocScribe.Proofs.Cuts
import Mathlib.Algebra.GroupWithZero.Nat

namespace DocScribe

namespace Text

/-- The line of a number, counted from one, with the line feed that ends it. -/
def line? : Nat → Text → Option Text
  | 0, _ => none
  | 1, t => some ((Block.splitFirstLine? t).elim t (·.1))
  | n + 2, t => (Block.splitFirstLine? t).bind fun halves => line? (n + 1) halves.2

/-- The same line, or a line without a line feed that was given one. -/
def Kept (line line' : Text) : Prop :=
  line' = line ∨ '\n' ∉ line ∧ (line' = line ++ ['\n'] ∨ line' = line ++ ['\r', '\n'])

theorem Kept.trans {a b c : Text} (hab : Kept a b) (hbc : Kept b c) : Kept a c := by
  rcases hab with rfl | ⟨ha, hb⟩
  · exact hbc
  · rcases hbc with rfl | ⟨hnone, -⟩
    · exact .inr ⟨ha, hb⟩
    · rcases hb with rfl | rfl <;> simp at hnone

theorem line?_below {head : Text} (h : '\n' ∉ head) (tail : Text) (n : Nat) :
    line? (n + 2) (head ++ '\n' :: tail) = line? (n + 1) tail := by
  rw [line?, Block.splitFirstLine?_append h]
  rfl

theorem line?_first {head : Text} (h : '\n' ∉ head) (tail : Text) :
    line? 1 (head ++ '\n' :: tail) = some (head ++ ['\n']) := by
  rw [line?, Block.splitFirstLine?_append h]
  rfl

theorem line?_of_no_feed {t : Text} (h : '\n' ∉ t) (n : Nat) :
    line? (n + 1) t = if n = 0 then some t else none := by
  cases n with
  | zero => rw [line?, Block.splitFirstLine?_eq_none h]; rfl
  | succ n => rw [line?, Block.splitFirstLine?_eq_none h]; rfl

theorem le_of_line? {l : Nat} {t line : Text} (h : line? l t = some line) : l ≤ 1 + feeds t := by
  induction l generalizing t with
  | zero => omega
  | succ n ih =>
    rcases exists_firstLine t with hnone | ⟨row, rest, rfl, hrow⟩
    · rw [line?_of_no_feed hnone] at h
      split at h
      · omega
      · cases h
    · cases n with
      | zero => omega
      | succ n =>
        rw [line?_below hrow] at h
        have := ih h
        rw [feeds_append, feeds_cons_feed]
        omega

theorem exists_line? {l : Nat} {t : Text} (hl : 1 ≤ l) (h : l ≤ 1 + feeds t) :
    ∃ line, line? l t = some line := by
  obtain ⟨n, rfl⟩ : ∃ n, l = n + 1 := ⟨l - 1, by omega⟩
  induction n generalizing t with
  | zero => exact ⟨_, rfl⟩
  | succ n ih =>
    rcases exists_firstLine t with hnone | ⟨row, rest, rfl, hrow⟩
    · rw [feeds_eq_zero.2 hnone] at h
      omega
    · rw [feeds_append, feeds_cons_feed, feeds_eq_zero.2 hrow] at h
      rw [line?_below hrow]
      exact ih (by omega) (by omega)

/-- Lines go by what stands before the end of a line above them. -/
theorem line?_append_of_le {head : Text} (h : EndsLine head) (a b : Text) {l : Nat} (hl : l ≤ feeds head) :
    line? l (head ++ a) = line? l (head ++ b) := by
  induction l generalizing head with
  | zero => rfl
  | succ n ih =>
    rcases exists_firstLine head with hnone | ⟨line, rest, rfl, hline⟩
    · rw [feeds_eq_zero.2 hnone] at hl
      omega
    · rw [List.append_assoc, List.append_assoc, List.cons_append, List.cons_append]
      cases n with
      | zero => rw [line?_first hline, line?_first hline]
      | succ n =>
        have hrest : EndsLine rest := EndsLine.of_append (a := line ++ ['\n']) (by simpa using h)
        rw [line?_below hline, line?_below hline]
        refine ih hrest ?_
        rw [feeds_append, feeds_cons_feed, feeds_eq_zero.2 hline] at hl
        omega

theorem line?_append_of_lt {head : Text} (h : EndsLine head) (tail : Text) (n : Nat) :
    line? (feeds head + (n + 1)) (head ++ tail) = line? (n + 1) tail := by
  obtain ⟨k, hk⟩ : ∃ k, k = feeds head := ⟨_, rfl⟩
  induction k generalizing head with
  | zero =>
    rcases h with rfl | ⟨above, rfl⟩
    · simp
    · simp [feeds] at hk
  | succ k ih =>
    rcases exists_firstLine head with hnone | ⟨line, rest, rfl, hline⟩
    · rw [feeds_eq_zero.2 hnone] at hk
      omega
    · have hrest : EndsLine rest := EndsLine.of_append (a := line ++ ['\n']) (by simpa using h)
      rw [feeds_append, feeds_cons_feed, feeds_eq_zero.2 hline] at hk
      have hsum : feeds (line ++ '\n' :: rest) + (n + 1) = (feeds rest + n) + 2 := by
        rw [feeds_append, feeds_cons_feed, feeds_eq_zero.2 hline]
        omega
      rw [hsum, List.append_assoc, List.cons_append, line?_below hline]
      exact ih hrest (by omega)

/-- Whole lines put in at the start of a line push down the lines from there
on. -/
theorem line?_insert {head rows : Text} (hhead : EndsLine head) (hrows : EndsLine rows) (tail : Text)
    (l : Nat) :
    line? (l + if 1 + feeds head ≤ l then feeds rows else 0) (head ++ rows ++ tail) = line? l (head ++ tail) := by
  split
  · next hle =>
    obtain ⟨n, rfl⟩ : ∃ n, l = feeds head + (n + 1) := ⟨l - feeds head - 1, by omega⟩
    have hsum : feeds head + (n + 1) + feeds rows = feeds (head ++ rows) + (n + 1) := by
      rw [feeds_append]
      omega
    rw [hsum, line?_append_of_lt (hhead.append hrows), line?_append_of_lt hhead]
  · next hlt =>
    rw [Nat.add_zero, List.append_assoc]
    exact line?_append_of_le hhead _ _ (by omega)

/-- A line ending and whatever else put in at the end of a text end its last
line and change no other. -/
theorem line?_append_ending {t line newline : Text} (hnew : newline = ['\n'] ∨ newline = ['\r', '\n'])
    (more : Text) {l : Nat} (h : line? l t = some line) :
    ∃ line', line? l (t ++ (newline ++ more)) = some line' ∧ Kept line line' := by
  induction l generalizing t with
  | zero => cases h
  | succ n ih =>
    rcases exists_firstLine t with hnone | ⟨row, rest, rfl, hrow⟩
    · rw [line?_of_no_feed hnone] at h
      split at h
      · next hn =>
        subst hn
        cases h
        rcases hnew with rfl | rfl
        · exact ⟨line ++ ['\n'], line?_first hnone more, .inr ⟨hnone, .inl rfl⟩⟩
        · have hnone' : '\n' ∉ line ++ ['\r'] := by simp [hnone]
          refine ⟨line ++ ['\r', '\n'], ?_, .inr ⟨hnone, .inr rfl⟩⟩
          have := line?_first hnone' more
          simpa using this
      · cases h
    · rw [List.append_assoc, List.cons_append]
      cases n with
      | zero =>
        rw [line?_first hrow] at h
        cases h
        exact ⟨_, line?_first hrow _, .inl rfl⟩
      | succ n =>
        rw [line?_below hrow] at h
        rw [line?_below hrow]
        exact ih h

/-! ## Counting the lines of a block -/

theorem length_segments (t : Text) : (segments t).length = 1 + feeds t := by
  unfold segments
  induction t with
  | nil => rfl
  | cons c t ih =>
    obtain ⟨p, ps, hp⟩ := List.exists_cons_of_ne_nil (pieces_ne_nil (· == '\n') t)
    by_cases hc : c = '\n'
    · subst hc
      simp [pieces, ih]
      omega
    · rw [feeds_cons, if_neg hc, Nat.zero_add, ← ih]
      simp [pieces, hc, hp]

theorem length_linesOfSegments (ls : List Text) : (linesOfSegments (ls ++ [[]])).length = ls.length := by
  induction ls with
  | nil => rfl
  | cons l ls ih =>
    obtain ⟨p, ps, hp⟩ : ∃ p ps, ls ++ [[]] = p :: ps := List.exists_cons_of_ne_nil (by simp)
    rw [List.cons_append, hp, linesOfSegments, ← hp, List.length_cons, ih, List.length_cons]
    simp

theorem length_lines (t : Text) : (lines (t ++ ['\n'])).length = feeds (t ++ ['\n']) := by
  have hsegments := length_segments t
  rw [lines, segments, pieces_append_cons (by decide), pieces, length_linesOfSegments, feeds_append]
  rw [segments] at hsegments
  rw [hsegments]
  exact Nat.add_comm _ _

theorem lineEnding_cases (t : Text) : lineEnding t = ['\n'] ∨ lineEnding t = ['\r', '\n'] := by
  simp only [lineEnding]
  split
  · exact .inr rfl
  · exact .inl rfl

end Text

theorem Block.withEnding_rows {newline : Text} (hnew : newline = ['\n'] ∨ newline = ['\r', '\n']) (t : Text) :
    Text.feeds (withEnding newline (t ++ ['\n'])) = Text.feeds (t ++ ['\n']) ∧
      Text.EndsLine (withEnding newline (t ++ ['\n'])) := by
  rcases hnew with rfl | rfl
  · exact ⟨by simp [withEnding], .inr ⟨t, by simp [withEnding]⟩⟩
  have hfeeds : ∀ u : Text,
      Text.feeds (u.flatMap fun c => if c = '\n' then ['\r', '\n'] else [c]) = Text.feeds u := by
    intro u
    induction u with
    | nil => rfl
    | cons c u ih =>
      rw [List.flatMap_cons, Text.feeds_append, ih, Text.feeds_cons]
      by_cases hc : c = '\n'
      · simp [hc, Text.feeds]
      · simp [hc, Text.feeds_cons]
  simp only [withEnding]
  split
  · exact ⟨rfl, .inr ⟨t, rfl⟩⟩
  · refine ⟨hfeeds _, .inr ⟨(t.flatMap fun c => if c = '\n' then ['\r', '\n'] else [c]) ++ ['\r'], ?_⟩⟩
    simp

/-! ## One round -/

namespace LineHistory

/-- How many lines a round puts in above a line: those of the runs at the line
itself and above. -/
def pushed (layer : Layer) (line : Nat) : Nat := ((layer.filter fun run => run.1 ≤ line).map (·.2)).sum

/-- The line that a line becomes in one round. -/
def push (layer : Layer) (line : Nat) : Nat := line + pushed layer line

theorem pushed_cons (run : Inserted) (layer : Layer) (line : Nat) :
    pushed (run :: layer) line = (if run.1 ≤ line then run.2 else 0) + pushed layer line := by
  by_cases h : run.1 ≤ line
  · simp [pushed, h]
  · simp [pushed, h]

theorem pushed_perm {layer layer' : Layer} (h : layer.Perm layer') (line : Nat) :
    pushed layer line = pushed layer' line :=
  ((h.filter _).map _).sum_nat

theorem pushed_eq_zero {layer : Layer} {line : Nat} (h : ∀ run ∈ layer, line < run.1) :
    pushed layer line = 0 := by
  have hnone : (layer.filter fun run => run.1 ≤ line) = [] :=
    List.filter_eq_nil_iff.2 fun run hrun => by simpa using h run hrun
  rw [pushed, hnone]
  rfl

theorem pushed_mono (layer : Layer) {line line' : Nat} (h : line ≤ line') :
    pushed layer line ≤ pushed layer line' := by
  induction layer with
  | nil => exact Nat.le_refl _
  | cons run layer ih =>
    rw [pushed_cons, pushed_cons]
    split <;> split <;> omega

theorem push_lt (layer : Layer) {line line' : Nat} (h : line < line') :
    push layer line < push layer line' := by
  have := pushed_mono layer (Nat.le_of_lt h)
  simp only [push]
  omega

theorem passedLines_push {layer : Layer} (h : layer.Pairwise fun a b => a.1 ≤ b.1) (line passed : Nat) :
    passedLines (line + passed + pushed layer line) passed layer = passed + pushed layer line := by
  induction layer generalizing passed with
  | nil => rfl
  | cons run layer ih =>
    obtain ⟨first, count⟩ := run
    obtain ⟨hfirst, hlayer⟩ := List.pairwise_cons.1 h
    rw [pushed_cons, passedLines]
    by_cases hle : first ≤ line
    · simp only [hle, if_true]
      have hsum : line + passed + (count + pushed layer line) = line + (passed + count) + pushed layer line := by
        omega
      rw [if_neg (by omega), hsum, ih hlayer, Nat.add_assoc]
    · -- The runs that follow start further down still.
      have hzero : pushed layer line = 0 := pushed_eq_zero fun run hrun => by
        have := hfirst run hrun
        simp only at this
        omega
      simp only [hle, if_false, hzero]
      rw [if_pos (by omega)]
      rfl

/-- **Undoing a round takes every line back to where it was.** -/
theorem lineBefore_push {layer : Layer} (h : layer.Pairwise fun a b => a.1 ≤ b.1) (line : Nat) :
    lineBefore layer (push layer line) = line := by
  have := passedLines_push h line 0
  rw [Nat.add_zero, Nat.zero_add] at this
  rw [lineBefore, push, this]
  omega

theorem sorted_leInserted (layer : Layer) : (sorted leInserted layer).Pairwise fun a b => a.1 ≤ b.1 := by
  have trans : ∀ a b c : Inserted, a.1 ≤ b.1 → b.1 ≤ c.1 → a.1 ≤ c.1 := fun _ _ _ => Nat.le_trans
  refine sorted_pairwise trans (List.pairwise_of_forall fun a b => ?_)
  by_cases h : leInserted a b = true
  · rw [if_pos h]
    simp only [leInserted, Bool.or_eq_true, Bool.and_eq_true, decide_eq_true_eq] at h
    omega
  · rw [if_neg h]
    simp only [leInserted, Bool.or_eq_true, Bool.and_eq_true, decide_eq_true_eq] at h
    omega

/-- The run of lines that a block adds to a text. -/
def insertedBy (t : Text) (b : Block) : Inserted := (inserted? t (LineTable.ofText t) b).getD (0, 0)

end LineHistory

open LineHistory

/-- The lines of a text stand in another one, where a round puts them. -/
def Moves (t : Text) (layer : Layer) (t' : Text) : Prop :=
  ∀ l line, Text.line? l t = some line →
    ∃ line', Text.line? (push layer l) t' = some line' ∧ Text.Kept line line'

/-- One more run above the others. -/
theorem Moves.cons {t u u' : Text} {run : Inserted} {layer : Layer} (hu : Moves t layer u)
    (hfirst : ∀ lower ∈ layer, run.1 ≤ lower.1) (hu' : Moves u [run] u') : Moves t (run :: layer) u' := by
  intro l line h
  obtain ⟨line', h', hkept⟩ := hu l line h
  obtain ⟨line'', h'', hkept'⟩ := hu' _ line' h'
  refine ⟨line'', ?_, hkept.trans hkept'⟩
  have hpush : push (run :: layer) l = push [run] (push layer l) := by
    simp only [push, pushed_cons, show pushed [] (l + pushed layer l) = 0 from rfl]
    by_cases hle : run.1 ≤ l
    · rw [if_pos hle, if_pos (by omega)]
      omega
    · have hzero : pushed layer l = 0 := pushed_eq_zero fun lower hlower => by
        have := hfirst lower hlower
        omega
      rw [if_neg hle, hzero, if_neg (by omega)]
  rw [hpush]
  exact h''

/-- A block goes to the start of a line, or to the end of the text with
nothing below it. -/
theorem Block.PointIn.point_cases {t : Text} {b : Block} {p : Point} (h : b.PointIn t)
    (hp : b.point? t = some p) :
    p.fresh = false ∧ Text.EndsLine p.head ∨ p.fresh = true ∧ p.head = t ∧ ∀ a, ¬b.Above t a := by
  cases h with
  | before above line rest ht hplace ho habove hline =>
    subst ht
    rw [Block.point?_before hplace ho habove hline] at hp
    cases hp
    exact .inl ⟨rfl, habove⟩
  | after head line tail ht hplace ho hline =>
    subst ht
    rw [Block.point?_after hplace ho hline] at hp
    cases hp
    exact .inl ⟨rfl, .inr ⟨head ++ line, by simp⟩⟩
  | fresh head rest ht hplace ho hrest =>
    have hnone : ∀ a, ¬b.Above t a := fun a => not_above_of_no_feed ht hplace ho hrest
    subst ht
    rw [Block.point?_fresh hplace ho hrest] at hp
    cases hp
    exact .inr ⟨rfl, rfl, hnone⟩

/-- A block whose text ends with a line feed. -/
def Block.Ended (b : Block) : Prop := ∃ s, b.text = s ++ ['\n']

theorem inserted?_eq {t : Text} {b : Block} {p : Point} (hp : b.point? t = some p)
    (ht : t = p.head ++ p.tail) :
    inserted? t (LineTable.ofText t) b =
      some (1 + p.head.feeds + (if p.fresh then 1 else 0), (Text.lines b.text).length) := by
  have hline : t.lineOf p.position = 1 + p.head.feeds := by
    conv => lhs; rw [ht]
    exact Text.lineOf_append _ _
  simp only [inserted?, hp, Option.map_some, LineTable.lineOf_ofText, hline]

theorem insertedBy_eq {t : Text} {b : Block} {p : Point} (hp : b.point? t = some p)
    (ht : t = p.head ++ p.tail) (hend : b.Ended) :
    insertedBy t b = (1 + p.head.feeds + (if p.fresh then 1 else 0), b.text.feeds) := by
  obtain ⟨s, hs⟩ := hend
  rw [insertedBy, inserted?_eq hp ht, hs, Text.length_lines]
  rfl

/-- **One block pushes down the lines from its own on and keeps them all.** -/
theorem splice?_moves {t : Text} {b : Block} {lower : List Block} (hb : b.PointIn t)
    (hlower : ∀ a ∈ lower, b.Above t a ∧ a.PointIn t) (hend : b.Ended) :
    Moves (Text.weave (putAt t lower) 0 t) [insertedBy t b] (Text.weave (putAt t (b :: lower)) 0 t) := by
  obtain ⟨p, hpoint, ht⟩ := hb.exists_point
  have hfind := point?_weave hb hlower hpoint
  have hsplit := weave_point hb hlower hpoint
  have hsplice := splice?_weave hb hlower
  rw [Block.splice?, hfind, Option.map_some, Option.some.injEq] at hsplice
  rw [hsplit, ← hsplice, insertedBy_eq hpoint ht hend]
  obtain ⟨s, hs⟩ := hend
  obtain ⟨hfeeds, hrows⟩ := Block.withEnding_rows (Text.lineEnding_cases t) s
  rw [← hs] at hfeeds hrows
  intro l line hl
  rcases hb.point_cases hpoint with ⟨hfresh, hhead⟩ | ⟨hfresh, hhead, hnone⟩
  · have hinsert := Text.line?_insert hhead hrows (Text.weave (putAt t lower) p.head.size p.tail) l
    refine ⟨line, ?_, .inl rfl⟩
    rw [hfeeds, hl] at hinsert
    simp only [hfresh, Block.insertion, push, pushed_cons]
    simpa [pushed] using hinsert
  · have hnil : lower = [] := List.eq_nil_iff_forall_not_mem.2 fun a ha => hnone a (hlower a ha).1
    have htail : p.tail = [] := by
      rw [hhead] at ht
      simpa using ht
    subst hnil
    rw [htail, show Text.weave (putAt t []) p.head.size [] = [] from rfl, List.append_nil] at hl ⊢
    obtain ⟨line', hl', hkept⟩ := Text.line?_append_ending (Text.lineEnding_cases t)
      (Block.withEnding t.lineEnding b.text) hl
    have hle := Text.le_of_line? hl
    refine ⟨line', ?_, hkept⟩
    rw [hfresh, if_pos rfl, push, pushed_eq_zero fun run hrun => ?_, Nat.add_zero]
    · exact hl'
    · obtain rfl := List.mem_singleton.1 hrun
      simp only
      omega

theorem insertedBy_le_of_above {t : Text} {a b : Block} (ha : a.PointIn t) (hb : b.PointIn t)
    (hab : a.Above t b) (hea : a.Ended) (heb : b.Ended) : (insertedBy t a).1 ≤ (insertedBy t b).1 := by
  obtain ⟨p, hp, htp⟩ := ha.exists_point
  obtain ⟨q, hq, htq⟩ := hb.exists_point
  rw [insertedBy_eq hp htp hea, insertedBy_eq hq htq heb]
  rcases ha.point_cases hp with ⟨hfresh, -⟩ | ⟨-, -, hnone⟩
  · have hcut : p.head.size ≤ q.head.size := by
      have ho : a.offset? t = some p.head.size := by rw [Block.offset?, hp]; rfl
      have ho' : b.offset? t = some q.head.size := by rw [Block.offset?, hq]; rfl
      rcases offset?_lt_of_above ha hb hab ho ho' with h | ⟨h, -⟩ <;> omega
    have hmono := Text.lineOf_mono t hcut
    have h1 := Text.lineOf_append p.head p.tail
    have h2 := Text.lineOf_append q.head q.tail
    rw [← htp] at h1
    rw [← htq] at h2
    simp only [hfresh, Bool.false_eq_true, if_false]
    omega
  · exact absurd hab (hnone b)

/-- The runs of the blocks of a round, in the order of their constructs, say
where the lines go. -/
theorem moves_upward {t : Text} {upward : List Block} (hpoint : ∀ b ∈ upward, b.PointIn t)
    (habove : upward.Pairwise fun a b => a.Above t b) (hend : ∀ b ∈ upward, b.Ended) :
    Moves t (upward.map (insertedBy t)) (Text.weave (putAt t upward) 0 t) := by
  induction upward with
  | nil =>
    rw [Text.weave_nothing (putAt t []) fun _ => rfl]
    exact fun l line h => ⟨line, h, .inl rfl⟩
  | cons b lower ih =>
    obtain ⟨hb, hlower⟩ := List.pairwise_cons.1 habove
    have hmem : ∀ a ∈ lower, a ∈ b :: lower := fun a ha => List.mem_cons_of_mem b ha
    have hpoint' := fun a ha => hpoint a (hmem a ha)
    have hbp := hpoint b List.mem_cons_self
    have hbe := hend b List.mem_cons_self
    refine Moves.cons (ih hpoint' hlower fun a ha => hend a (hmem a ha)) ?_
      (splice?_moves hbp (fun a ha => ⟨hb a ha, hpoint' a ha⟩) hbe)
    intro run hrun
    obtain ⟨a, ha, rfl⟩ := List.mem_map.1 hrun
    exact insertedBy_le_of_above hbp (hpoint' a ha) (hb a ha) hbe (hend a (hmem a ha))

theorem mapM_inserted? {t : Text} {blocks : List Block} (hpoint : ∀ b ∈ blocks, b.PointIn t) :
    blocks.mapM (inserted? t (LineTable.ofText t)) = some (blocks.map (insertedBy t)) := by
  induction blocks with
  | nil => rfl
  | cons b bs ih =>
    obtain ⟨p, hp, ht⟩ := (hpoint b List.mem_cons_self).exists_point
    have hb : inserted? t (LineTable.ofText t) b = some (insertedBy t b) := by
      rw [insertedBy, inserted?_eq hp ht]
      rfl
    rw [List.mapM_cons, hb, ih fun a ha => hpoint a (List.mem_cons_of_mem b ha)]
    rfl

/-- **A round of stacked blocks**, each ended by a line feed: recording and
putting in both succeed, **every line is kept, and the layer that is recorded
says where it went.** -/
theorem Stacked.moves {t : Text} {blocks : List Block} (h : Stacked t blocks) (hend : ∀ b ∈ blocks, b.Ended)
    (history : LineHistory) :
    ∃ layer t', history.record? t blocks = some ⟨layer :: history.layers⟩ ∧ applyBlocks? t blocks = some t' ∧
      layer.Pairwise (fun a b => a.1 ≤ b.1) ∧ Moves t layer t' := by
  have hperm := sorted_perm (fun a b : Block => decide (a.start ≤ b.start)) blocks
  refine ⟨sorted leInserted (blocks.map (insertedBy t)), _, ?_, h.applyBlocks?_eq, sorted_leInserted _, ?_⟩
  · rw [record?, mapM_inserted? h.point]
    rfl
  · have hup := moves_upward (fun b hb => h.point b (hperm.mem_iff.1 hb)) h.byStart
      fun b hb => hend b (hperm.mem_iff.1 hb)
    have hsame : (sorted leInserted (blocks.map (insertedBy t))).Perm
        ((DocScribe.byStart blocks).map (insertedBy t)) :=
      (sorted_perm _ _).trans (hperm.map _).symm
    intro l line hl
    rw [push, pushed_perm hsame]
    exact hup l line hl

end DocScribe
