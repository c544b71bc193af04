/-
Splicing as one simultaneous insertion.

`Text.weave` puts texts in at the offsets of a text, all at once: nothing that
is put in is ever looked at. `applyBlocks?` works the other way, block by
block, looking for each place in what the blocks before it left, with the
offsets of the text as it was. The two agree on blocks that are stacked, one
above the other (`Stacked.applyBlocks?_eq`): a block that is above the others
finds its line feed before it comes to anything they put in.
-/
import DocScribe.Proofs.Signatures

namespace DocScribe

/-! ## Sorting -/

section sorting
variable {α : Type} {le : α → α → Bool} {R : α → α → Prop}

theorem insertSorted_pairwise (trans : ∀ x y z, R x y → R y z → R x z) {x : α} {l : List α}
    (hx : ∀ y ∈ l, if le x y then R x y else R y x) (hl : l.Pairwise R) :
    (insertSorted le x l).Pairwise R := by
  induction l with
  | nil => simp [insertSorted]
  | cons y ys ih =>
    obtain ⟨hy, hys⟩ := List.pairwise_cons.1 hl
    have hxy := hx y List.mem_cons_self
    simp only [insertSorted]
    split
    · next hle =>
      rw [if_pos hle] at hxy
      refine List.pairwise_cons.2 ⟨fun z hz => ?_, hl⟩
      rcases List.mem_cons.1 hz with rfl | hz
      · exact hxy
      · exact trans x y z hxy (hy z hz)
    · next hle =>
      rw [if_neg hle] at hxy
      refine List.pairwise_cons.2 ⟨fun z hz => ?_, ih (fun z hz => hx z (List.mem_cons_of_mem y hz)) hys⟩
      rcases List.mem_cons.1 ((insertSorted_perm le x ys).mem_iff.1 hz) with rfl | hz
      · exact hxy
      · exact hy z hz

/-- Sorting brings the elements into any transitive order that the comparison
decides between them. -/
theorem sorted_pairwise (trans : ∀ x y z, R x y → R y z → R x z) {l : List α}
    (h : l.Pairwise fun x y => if le x y then R x y else R y x) : (sorted le l).Pairwise R := by
  induction l with
  | nil => simp [sorted]
  | cons x xs ih =>
    obtain ⟨hx, hxs⟩ := List.pairwise_cons.1 h
    exact insertSorted_pairwise trans (fun y hy => hx y ((sorted_perm le xs).mem_iff.1 hy)) (ih hxs)

end sorting

/-! ## Putting in at offsets -/

namespace Text

/-- A text with `put n` put in at every offset `n`; the text starts at an
offset itself. -/
def weave (put : Nat → Text) : Nat → Text → Text
  | o, [] => put o
  | o, c :: t => put o ++ c :: weave put (o + c.utf8Size) t

/-- The same, with nothing put in at the end. -/
def weaveInit (put : Nat → Text) : Nat → Text → Text
  | _, [] => []
  | o, c :: t => put o ++ c :: weaveInit put (o + c.utf8Size) t

variable {put put' : Nat → Text}

theorem weave_append (put : Nat → Text) (o : Nat) (a b : Text) :
    weave put o (a ++ b) = weaveInit put o a ++ weave put (o + size a) b := by
  induction a generalizing o with
  | nil => simp [weaveInit]
  | cons c a ih => simp [weave, weaveInit, ih, Nat.add_assoc]

theorem weaveInit_eq_self {o : Nat} {a : Text} (h : ∀ n, o ≤ n → n < o + size a → put n = []) :
    weaveInit put o a = a := by
  induction a generalizing o with
  | nil => rfl
  | cons c a ih =>
    have hc := c.utf8Size_pos
    simp only [size_cons] at h
    rw [weaveInit, h o (by omega) (by omega), ih fun n h1 h2 => h n (by omega) (by omega), List.nil_append]

theorem weaveInit_congr {o : Nat} {a : Text} (h : ∀ n, n < o + size a → put n = put' n) :
    weaveInit put o a = weaveInit put' o a := by
  induction a generalizing o with
  | nil => rfl
  | cons c a ih =>
    have hc := c.utf8Size_pos
    simp only [size_cons] at h
    rw [weaveInit, weaveInit, h o (by omega), ih fun n hn => h n (by omega)]

theorem weave_eq_weaveInit (put : Nat → Text) (o : Nat) (a : Text) :
    weave put o a = weaveInit put o a ++ put (o + size a) := by
  have := weave_append put o a []
  rwa [List.append_nil] at this

theorem weave_congr {o : Nat} {t : Text} (h : ∀ n, o ≤ n → put n = put' n) :
    weave put o t = weave put' o t := by
  induction t generalizing o with
  | nil => exact h o (Nat.le_refl o)
  | cons c t ih => rw [weave, weave, h o (Nat.le_refl o), ih fun n hn => h n (by omega)]

theorem weave_nothing (put : Nat → Text) (h : ∀ n, put n = []) (o : Nat) (t : Text) : weave put o t = t := by
  induction t generalizing o with
  | nil => exact h o
  | cons c t ih => rw [weave, h o, ih, List.nil_append]

/-- What is put in at the offset where a text starts comes first. -/
theorem weave_pull {o : Nat} {t first : Text} (hput : put o = first ++ put' o)
    (h : ∀ n, o < n → put n = put' n) : weave put o t = first ++ weave put' o t := by
  cases t with
  | nil => exact hput
  | cons c t =>
    have hc := c.utf8Size_pos
    rw [weave, weave, hput, weave_congr fun n hn => h n (by omega), List.append_assoc]

end Text

/-! ## Blocks as simultaneous insertions -/

/-- The offset at which a block is put in. -/
def Block.offset? (b : Block) (t : Text) : Option Nat := (b.point? t).map Point.position

/-- What a block adds to a text: its text with the line endings of the text,
after one more line ending when the block goes below a construct that no line
feed follows. -/
def Block.added (t : Text) (b : Block) : Text :=
  (if b.placement = .after ∧ '\n' ∉ (t.after? b.stop).getD [] then t.lineEnding else []) ++
    Block.withEnding t.lineEnding b.text

/-- What some blocks put in at an offset, one after the other. -/
def putAt (t : Text) (blocks : List Block) (o : Nat) : Text :=
  (blocks.filter fun b => b.offset? t = some o).flatMap (Block.added t)

/-- Blocks in the order in which their constructs start. -/
def byStart (blocks : List Block) : List Block := sorted (fun a b => a.start ≤ b.start) blocks

theorem putAt_cons_self {t : Text} {b : Block} {o : Nat} (h : b.offset? t = some o) (bs : List Block) :
    putAt t (b :: bs) o = b.added t ++ putAt t bs o := by simp [putAt, h]

theorem putAt_cons_other {t : Text} {b : Block} {o : Nat} (h : b.offset? t ≠ some o) (bs : List Block) :
    putAt t (b :: bs) o = putAt t bs o := by simp [putAt, h]

theorem putAt_eq_nil {t : Text} {bs : List Block} {o : Nat} (h : ∀ b ∈ bs, b.offset? t ≠ some o) :
    putAt t bs o = [] := by
  simp only [putAt, List.flatMap_eq_nil_iff, List.mem_filter, decide_eq_true_eq]
  exact fun b hb => absurd hb.2 (h b hb.1)

/-- The point of a block whose anchor is a place of the text. -/
inductive Block.PointIn (t : Text) (b : Block) : Prop
  /-- On the line that the construct starts on. -/
  | before (above line rest : Text) (ht : t = above ++ line ++ rest) (hp : b.placement = .before)
      (ho : b.start = (above ++ line).size) (habove : Text.EndsLine above) (hline : '\n' ∉ line)
  /-- Behind the first line feed after the signature. -/
  | after (head line tail : Text) (ht : t = head ++ (line ++ '\n' :: tail)) (hp : b.placement = .after)
      (ho : b.stop = head.size) (hline : '\n' ∉ line)
  /-- At the end of the text: no line feed follows the signature. -/
  | fresh (head rest : Text) (ht : t = head ++ rest) (hp : b.placement = .after)
      (ho : b.stop = head.size) (hrest : '\n' ∉ rest)

theorem Block.PointIn.of_place {t : Text} {b : Block}
    (h : ∃ head tail, t = head ++ tail ∧ b.anchor = head.size) : b.PointIn t := by
  obtain ⟨head, tail, rfl, ho⟩ := h
  cases hp : b.placement with
  | before =>
    obtain ⟨above, line, rfl, habove, hline⟩ := Text.exists_lastLine head
    exact .before above line tail rfl hp (by simpa [Block.anchor, hp] using ho) habove hline
  | after =>
    have ho : b.stop = head.size := by simpa [Block.anchor, hp] using ho
    rcases Text.exists_firstLine tail with hrest | ⟨line, tail, rfl, hline⟩
    · exact .fresh head tail rfl hp ho hrest
    · exact .after head line tail rfl hp ho hline

theorem Block.PointIn.exists_point {t : Text} {b : Block} (h : b.PointIn t) :
    ∃ p, b.point? t = some p ∧ t = p.head ++ p.tail := by
  cases h with
  | before above line rest ht hp ho habove hline =>
    subst ht
    exact ⟨_, Block.point?_before hp ho habove hline, by simp⟩
  | after head line tail ht hp ho hline =>
    subst ht
    exact ⟨_, Block.point?_after hp ho hline, by simp⟩
  | fresh head rest ht hp ho hrest =>
    subst ht
    exact ⟨_, Block.point?_fresh hp ho hrest, by simp⟩

section above
variable {t : Text} {a b : Block} {o : Nat}

/-- The offset of a block lies behind its signature, or at the start of its
line. -/
theorem offset?_line (h : a.PointIn t) (ho : a.offset? t = some o) :
    (a.placement = .before ∧ t.lineOf o = t.lineOf a.anchor ∧
        ∃ head tail, t = head ++ tail ∧ Text.EndsLine head ∧ o = head.size) ∨
      (a.placement = .after ∧ a.stop < o) ∨ (a.placement = .after ∧ a.stop ≤ o ∧ o = t.size) := by
  cases h with
  | before above line rest ht hp hstart habove hline =>
    subst ht
    rw [Block.offset?, Block.point?_before hp hstart habove hline] at ho
    simp only [Option.map_some, Point.position, Option.some.injEq] at ho
    refine .inl ⟨hp, ?_, above, line ++ rest, by simp, habove, ho.symm⟩
    have h1 := Text.lineOf_append (above ++ line) rest
    have h2 := Text.lineOf_append above (line ++ rest)
    rw [← List.append_assoc] at h2
    rw [show a.anchor = (above ++ line).size by simpa [Block.anchor, hp] using hstart, h1, ← ho, h2,
      Text.feeds_append, Text.feeds_eq_zero.2 hline, Nat.add_zero]
  | after head line tail ht hp hstop hline =>
    subst ht
    rw [Block.offset?, Block.point?_after hp hstop hline] at ho
    simp only [Option.map_some, Point.position, Option.some.injEq, Text.size_append] at ho
    have hone : Text.size ['\n'] = 1 := rfl
    exact .inr (.inl ⟨hp, by omega⟩)
  | fresh head rest ht hp hstop hrest =>
    subst ht
    rw [Block.offset?, Block.point?_fresh hp hstop hrest] at ho
    simp only [Option.map_some, Point.position, Option.some.injEq] at ho
    exact .inr (.inr ⟨hp, by rw [← ho, hstop, Text.size_append]; omega, ho.symm⟩)

/-- A block above another is put in above the line of the other's start. -/
theorem start_lt_of_above (hp : b.placement = .before) (hba : b.Above t a) (ha : a.PointIn t)
    (ho : a.offset? t = some o) : b.start < o := by
  obtain ⟨-, hplace, hline⟩ := hba
  rcases offset?_line ha ho with ⟨-, hsame, head, tail, rfl, hhead, rfl⟩ | ⟨hpa, -⟩ | ⟨hpa, -⟩
  · rw [show b.anchor = b.start by simp [Block.anchor, hp]] at hline
    refine Nat.lt_of_not_le fun hle => ?_
    have := (Text.lineStart_le_iff hhead tail _).1 hle
    omega
  · rw [hp, hpa] at hplace
    cases hplace
  · rw [hp, hpa] at hplace
    cases hplace

/-- Below a block that goes behind a line feed, offsets lie behind that line
feed, and so do the ends of signatures. -/
theorem lineStart_le_of_above {head tail : Text} (ht : t = head ++ tail) (hhead : Text.EndsLine head)
    (hp : b.placement = .after) (hnext : 1 + head.feeds = t.lineOf b.stop + 1) (hba : b.Above t a)
    (ha : a.PointIn t) (ho : a.offset? t = some o) : head.size ≤ a.stop ∧ a.stop ≤ o := by
  obtain ⟨-, hplace, hline⟩ := hba
  have hpa : a.placement = .after := by rw [← hplace, hp]
  rw [show b.anchor = b.stop by simp [Block.anchor, hp],
    show a.anchor = a.stop by simp [Block.anchor, hpa]] at hline
  have hle : head.size ≤ a.stop := by
    subst ht
    rw [Text.lineStart_le_iff hhead tail, Text.lineOf_append]
    omega
  rcases offset?_line ha ho with ⟨hpa', -⟩ | ⟨-, h⟩ | ⟨-, h, -⟩
  · rw [hpa] at hpa'
    cases hpa'
  · exact ⟨hle, by omega⟩
  · exact ⟨hle, h⟩

/-- Nothing is below a block that no line feed follows. -/
theorem not_above_of_no_feed {head rest : Text} (ht : t = head ++ rest) (hp : b.placement = .after)
    (hstop : b.stop = head.size) (hrest : '\n' ∉ rest) : ¬b.Above t a := by
  rintro ⟨-, -, hline⟩
  have hlast : t.lineOf a.anchor ≤ 1 + head.feeds := by
    have h1 := Text.feedsBefore_le_feeds t a.anchor
    rw [ht, Text.feeds_append, Text.feeds_eq_zero.2 hrest] at h1
    rw [Text.lineOf, ht]
    omega
  rw [show b.anchor = b.stop by simp [Block.anchor, hp], hstop] at hline
  have hhere := Text.lineOf_append head rest
  rw [← ht] at hhere
  omega

end above

/-! ## Stacked blocks -/

/-- Blocks at places of a text, of any two of which one is above the other. -/
structure Stacked (t : Text) (blocks : List Block) : Prop where
  point : ∀ b ∈ blocks, b.PointIn t
  above : blocks.Pairwise fun a b => a.Above t b ∨ b.Above t a

theorem Block.Above.trans {t : Text} {a b c : Block} (hab : a.Above t b) (hbc : b.Above t c) : a.Above t c :=
  ⟨Nat.lt_trans hab.1 hbc.1, hab.2.1.trans hbc.2.1, Nat.lt_trans hab.2.2 hbc.2.2⟩

theorem Stacked.downward {t : Text} {bs : List Block} (h : Stacked t bs) :
    (sorted Block.downward bs).Pairwise fun a b => b.Above t a := by
  refine sorted_pairwise (fun _ _ _ hxy hyz => hyz.trans hxy) (h.above.imp fun {a b} hab => ?_)
  have hne : a.start ≠ b.start := by
    rcases hab with hab | hab
    · exact Nat.ne_of_lt hab.1
    · exact Nat.ne_of_gt hab.1
  rw [Block.downward, if_pos hne]
  rcases hab with hab | hab
  · have := hab.1
    rw [if_neg (by simp; omega)]
    exact hab
  · have := hab.1
    rw [if_pos (by simpa using this)]
    exact hab

theorem Stacked.byStart {t : Text} {bs : List Block} (h : Stacked t bs) :
    (byStart bs).Pairwise fun a b => a.Above t b := by
  refine sorted_pairwise (fun _ _ _ hxy hyz => hxy.trans hyz) (h.above.imp fun {a b} hab => ?_)
  rcases hab with hab | hab
  · have := hab.1
    rw [if_pos (by simp; omega)]
    exact hab
  · have := hab.1
    rw [if_neg (by simpa using this)]
    exact hab

/-- From the last block to the first is the order of starts turned round. -/
theorem Stacked.sorted_downward {t : Text} {bs : List Block} (h : Stacked t bs) :
    sorted Block.downward bs = (DocScribe.byStart bs).reverse := by
  have hperm : (sorted Block.downward bs).Perm (DocScribe.byStart bs).reverse :=
    (sorted_perm _ bs).trans ((sorted_perm _ bs).symm.trans (List.reverse_perm _).symm)
  have hupward : (DocScribe.byStart bs).reverse.Pairwise fun a b => b.Above t a :=
    List.pairwise_reverse.2 h.byStart
  refine hperm.eq_of_pairwise (fun a b _ _ hab hba => ?_) h.downward hupward
  exact absurd (Nat.lt_trans hab.1 hba.1) (Nat.lt_irrefl _)

/-! ## One block after the other is all at once -/

theorem Block.insertion_eq_added {t : Text} {b : Block} {p : Point} (hb : b.PointIn t)
    (hpoint : b.point? t = some p) : b.insertion t.lineEnding p.fresh = b.added t := by
  cases hb with
  | before above line rest ht hp ho habove hline =>
    subst ht
    rw [Block.point?_before hp ho habove hline] at hpoint
    cases hpoint
    simp [Block.insertion, Block.added, hp]
  | after head line tail ht hp ho hline =>
    subst ht
    rw [Block.point?_after hp ho hline] at hpoint
    cases hpoint
    simp [Block.insertion, Block.added, ho, Text.after?, Text.cut?_size_append]
  | fresh head rest ht hp ho hrest =>
    subst ht
    rw [Block.point?_fresh hp ho hrest] at hpoint
    cases hpoint
    simp [Block.insertion, Block.added, hp, ho, Text.after?, Text.cut?_size_append, hrest]

section point
variable {t : Text} {b : Block} {lower : List Block} {p : Point}

/-- Nothing goes in front of the place of a block that is above the others. -/
theorem putAt_eq_nil_of_lt (hb : b.PointIn t) (hlower : ∀ a ∈ lower, b.Above t a ∧ a.PointIn t)
    (hpoint : b.point? t = some p) {n : Nat} (hn : n < p.head.size) : putAt t lower n = [] := by
  cases hb with
  | before above line rest ht hp ho habove hline =>
    subst ht
    rw [Block.point?_before hp ho habove hline] at hpoint
    cases hpoint
    refine putAt_eq_nil fun a ha hoff => ?_
    have hlt := start_lt_of_above hp (hlower a ha).1 (hlower a ha).2 hoff
    rw [ho, Text.size_append] at hlt
    dsimp only at hn
    omega
  | after head line tail ht hp ho hline =>
    subst ht
    rw [Block.point?_after hp ho hline] at hpoint
    cases hpoint
    have hflat : head ++ (line ++ '\n' :: tail) = (head ++ (line ++ ['\n'])) ++ tail := by simp
    have hends : Text.EndsLine (head ++ (line ++ ['\n'])) := .inr ⟨head ++ line, by simp⟩
    have hnext : 1 + (head ++ (line ++ ['\n'])).feeds =
        Text.lineOf (head ++ (line ++ '\n' :: tail)) b.stop + 1 := by
      rw [ho, Text.lineOf_append, Text.feeds_append, Text.feeds_append, Text.feeds_eq_zero.2 hline]
      rfl
    refine putAt_eq_nil fun a ha hoff => ?_
    have hle := lineStart_le_of_above hflat hends hp hnext (hlower a ha).1 (hlower a ha).2 hoff
    dsimp only at hn
    omega
  | fresh head rest ht hp ho hrest =>
    have hnone : lower = [] := List.eq_nil_iff_forall_not_mem.2 fun a ha =>
      not_above_of_no_feed ht hp ho hrest (hlower a ha).1
    subst hnone
    rfl

theorem weave_point (hb : b.PointIn t) (hlower : ∀ a ∈ lower, b.Above t a ∧ a.PointIn t)
    (hpoint : b.point? t = some p) :
    Text.weave (putAt t lower) 0 t = p.head ++ Text.weave (putAt t lower) p.head.size p.tail := by
  obtain ⟨q, hq, ht⟩ := hb.exists_point
  obtain rfl : q = p := Option.some.inj (hq.symm.trans hpoint)
  have hhead : Text.weaveInit (putAt t lower) 0 q.head = q.head :=
    Text.weaveInit_eq_self fun n _ hn => putAt_eq_nil_of_lt hb hlower hpoint (by omega)
  conv => lhs; rw [ht]
  rw [Text.weave_append, ← ht, hhead, Nat.zero_add]

/-- A block above the blocks that are already in finds its place in the text
with these blocks, and finds the same place. -/
theorem point?_weave (hb : b.PointIn t) (hlower : ∀ a ∈ lower, b.Above t a ∧ a.PointIn t)
    (hpoint : b.point? t = some p) :
    b.point? (Text.weave (putAt t lower) 0 t) =
      some ⟨p.head, Text.weave (putAt t lower) p.head.size p.tail, p.fresh⟩ := by
  rw [weave_point hb hlower hpoint]
  cases hb with
  | before above line rest ht hp ho habove hline =>
    subst ht
    rw [Block.point?_before hp ho habove hline] at hpoint
    cases hpoint
    -- The line keeps its beginning up to where the construct starts.
    have hrow : Text.weaveInit (putAt (above ++ line ++ rest) lower) above.size line = line := by
      refine Text.weaveInit_eq_self fun n _ hn => putAt_eq_nil fun a ha hoff => ?_
      have hlt := start_lt_of_above hp (hlower a ha).1 (hlower a ha).2 hoff
      rw [ho, Text.size_append] at hlt
      omega
    rw [Text.weave_append, hrow, ← List.append_assoc]
    exact Block.point?_before hp ho habove hline
  | after head line tail ht hp ho hline =>
    subst ht
    rw [Block.point?_after hp ho hline] at hpoint
    cases hpoint
    rw [List.append_assoc, List.append_assoc]
    exact Block.point?_after hp ho hline
  | fresh head rest ht hp ho hrest =>
    have hnone : lower = [] := List.eq_nil_iff_forall_not_mem.2 fun a ha =>
      not_above_of_no_feed ht hp ho hrest (hlower a ha).1
    subst hnone ht
    rw [Block.point?_fresh hp ho hrest] at hpoint
    cases hpoint
    simp only [Text.weave, putAt, List.filter_nil, List.flatMap_nil, List.append_nil]
    exact Block.point?_fresh hp ho hrest

end point

theorem splice?_weave {t : Text} {b : Block} {lower : List Block} (hb : b.PointIn t)
    (hlower : ∀ a ∈ lower, b.Above t a ∧ a.PointIn t) :
    Block.splice? t.lineEnding (Text.weave (putAt t lower) 0 t) b =
      some (Text.weave (putAt t (b :: lower)) 0 t) := by
  obtain ⟨p, hpoint, ht⟩ := hb.exists_point
  have hfind := point?_weave hb hlower hpoint
  have hoff : b.offset? t = some p.head.size := by simp [Block.offset?, hpoint, Point.position]
  have hpull : Text.weave (putAt t (b :: lower)) p.head.size p.tail =
      b.added t ++ Text.weave (putAt t lower) p.head.size p.tail :=
    Text.weave_pull (putAt_cons_self hoff lower) fun n hn =>
      putAt_cons_other (by rw [hoff]; simp; omega) lower
  have hinit : Text.weaveInit (putAt t (b :: lower)) 0 p.head = p.head :=
    Text.weaveInit_eq_self fun n _ hn => by
      rw [putAt_cons_other (by rw [hoff]; simp; omega), putAt_eq_nil_of_lt hb hlower hpoint (by omega)]
  have hall : Text.weave (putAt t (b :: lower)) 0 t =
      p.head ++ (b.added t ++ Text.weave (putAt t lower) p.head.size p.tail) := by
    conv => lhs; rw [ht]
    rw [Text.weave_append, ← ht, hinit, Nat.zero_add, hpull]
  rw [Block.splice?, hfind, hall, Option.map_some, Block.insertion_eq_added hb hpoint, List.append_assoc]

/-- **Blocks that are stacked**, put in from the last to the first, each at
the place it has in what the others left, **are all put in at once**. -/
theorem Stacked.applyBlocks?_eq {t : Text} {bs : List Block} (h : Stacked t bs) :
    applyBlocks? t bs = some (Text.weave (putAt t (DocScribe.byStart bs)) 0 t) := by
  have hpoint : ∀ b ∈ DocScribe.byStart bs, b.PointIn t := fun b hb =>
    h.point b ((sorted_perm _ bs).mem_iff.1 hb)
  have habove := h.byStart
  rw [applyBlocks?, h.sorted_downward, List.foldlM_reverse]
  generalize DocScribe.byStart bs = upward at hpoint habove
  induction upward with
  | nil =>
    rw [Text.weave_nothing (putAt t []) fun _ => rfl]
    rfl
  | cons b lower ih =>
    obtain ⟨hb, hlower⟩ := List.pairwise_cons.1 habove
    rw [List.foldrM_cons, ih (fun a ha => hpoint a (List.mem_cons_of_mem b ha)) hlower]
    exact splice?_weave (hpoint b List.mem_cons_self) fun a ha =>
      ⟨hb a ha, hpoint a (List.mem_cons_of_mem b ha)⟩

end DocScribe
