/-
Where the blocks of one scan cut the text.

`stacked_of_scan`: blocks that belong to candidates of one scan are stacked,
so that putting them in one after the other is one simultaneous insertion
(`applyBlocks?_eq_weave`). Their cuts are different, with one exception: a
signature that takes in the line feed that ends the text has its cut at the
end of the text, and so has a signature that ends on the last line
(`Block.MeetsAtEnd`).

`cut_in_signature_iff`: a cut goes through the signature of another construct
exactly when that signature spans lines and shares the line that the block
goes next to (`Candidate.CutsThrough`).
-/
import DocScribe.Proofs.PythonGrammar
import DocScribe.Proofs.Weave

namespace DocScribe

section cuts
variable {t : Text} {a b : Block} {m n : Nat}

theorem offset?_le_start (ha : a.PointIn t) (hp : a.placement = .before) (hm : a.offset? t = some m) :
    m ≤ a.start := by
  cases ha with
  | before above line rest ht hp ho habove hline =>
    subst ht
    rw [Block.offset?, Block.point?_before hp ho habove hline] at hm
    simp only [Option.map_some, Point.position, Option.some.injEq] at hm
    rw [ho, ← hm, Text.size_append]
    omega
  | after _ _ _ _ hp' | fresh _ _ _ hp' =>
    rw [hp] at hp'
    cases hp'

/-- Two blocks that go below their constructs meet at the end of the text: the
upper construct ends on the last line, and the lower one behind its line
feed. -/
def Block.MeetsAtEnd (t : Text) (a b : Block) : Prop :=
  a.placement = .after ∧ (∃ above, t = above ++ ['\n']) ∧ t.lineOf a.stop + 1 = t.lineOf t.size ∧
    b.stop = t.size

theorem offset?_of_stop_eq (hp : b.placement = .after) (hstop : b.stop = t.size) :
    b.offset? t = some t.size := by
  have hend : t = t ++ [] := by simp
  rw [Block.offset?, hend, Block.point?_fresh hp (by simpa using hstop) (by simp)]
  rfl

/-- The cut of an upper block is above that of a lower one, or the two blocks
meet at the end of the text. -/
theorem offset?_lt_of_above (ha : a.PointIn t) (hb : b.PointIn t) (hab : a.Above t b)
    (hm : a.offset? t = some m) (hn : b.offset? t = some n) : m < n ∨ m = n ∧ a.MeetsAtEnd t b := by
  cases ha with
  | before above line rest ht hp ho habove hline =>
    have hle := offset?_le_start (.before above line rest ht hp ho habove hline) hp hm
    have hlt := start_lt_of_above hp hab hb hn
    exact .inl (by omega)
  | after head line tail ht hp ho hline =>
    have hflat : t = (head ++ (line ++ ['\n'])) ++ tail := by rw [ht]; simp
    have hm' : m = (head ++ (line ++ ['\n'])).size := by
      rw [ht, Block.offset?, Block.point?_after hp ho hline] at hm
      simpa [Point.position] using hm.symm
    have hnext : 1 + (head ++ (line ++ ['\n'])).feeds = t.lineOf a.stop + 1 := by
      rw [ho, ht, Text.lineOf_append, Text.feeds_append, Text.feeds_append, Text.feeds_eq_zero.2 hline]
      rfl
    obtain ⟨h1, h2⟩ := lineStart_le_of_above hflat (.inr ⟨head ++ line, by simp⟩) hp hnext hab hb hn
    by_cases hlt : m < n
    · exact .inl hlt
    have hpb : b.placement = .after := by rw [← hab.2.1, hp]
    -- The lower cut is not behind its signature, so it is the end of the text.
    rcases offset?_line hb hn with ⟨hpb', -⟩ | ⟨-, h3⟩ | ⟨-, -, h3⟩
    · rw [hpb] at hpb'
      cases hpb'
    · omega
    have htail : tail = [] := Text.eq_nil_of_size_eq_zero (by
      have := congrArg Text.size hflat
      rw [Text.size_append] at this
      omega)
    subst htail
    have hend := Text.lineOf_append (head ++ (line ++ ['\n'])) []
    rw [← hflat, ← hm', show m = t.size by omega] at hend
    exact .inr ⟨by omega, hp, ⟨head ++ line, by rw [hflat]; simp⟩, by omega, by omega⟩
  | fresh head rest ht hp ho hrest => exact absurd hab (not_above_of_no_feed ht hp ho hrest)

/-- Blocks that meet at the end of the text share a cut there. -/
theorem offset?_eq_of_meetsAtEnd (ha : a.PointIn t) (hp : a.placement = b.placement)
    (h : a.MeetsAtEnd t b) : a.offset? t = some t.size ∧ b.offset? t = some t.size := by
  obtain ⟨hpa, ⟨above, hends⟩, hline, hstop⟩ := h
  refine ⟨?_, offset?_of_stop_eq (by rw [← hp, hpa]) hstop⟩
  have hall : t.lineOf t.size = 1 + t.feeds := by
    have := Text.lineOf_append t []
    rwa [List.append_nil] at this
  cases ha with
  | before above line rest ht hp' ho habove hline =>
    rw [hpa] at hp'
    cases hp'
  | after head line tail ht hp' ho hfeed =>
    have hhead : t.lineOf a.stop = 1 + head.feeds := by rw [ho, ht, Text.lineOf_append]
    have htail : tail.feeds = 0 := by
      have := congrArg Text.feeds ht
      rw [Text.feeds_append, Text.feeds_append, Text.feeds_cons_feed] at this
      omega
    have hnil : tail = [] := by
      have hends' : Text.EndsLine tail :=
        Text.EndsLine.of_append (a := head ++ (line ++ ['\n'])) (.inr ⟨above, by rw [← hends, ht]; simp⟩)
      rcases hends' with hnil | ⟨init, rfl⟩
      · exact hnil
      · simp [Text.feeds] at htail
    subst hnil
    rw [Block.offset?, ht, Block.point?_after hp' ho hfeed]
    simp [Point.position]
  | fresh head rest ht hp' ho hrest =>
    have hhead : t.lineOf a.stop = 1 + head.feeds := by rw [ho, ht, Text.lineOf_append]
    have := congrArg Text.feeds ht
    rw [Text.feeds_append, Text.feeds_eq_zero.2 hrest] at this
    omega

/-- Of two blocks, one above the other, the cuts are the same exactly when
they meet at the end of the text. -/
theorem offset?_eq_iff_of_above (ha : a.PointIn t) (hb : b.PointIn t) (hab : a.Above t b) :
    a.offset? t = b.offset? t ↔ a.MeetsAtEnd t b ∨ b.MeetsAtEnd t a := by
  obtain ⟨p, hp, -⟩ := ha.exists_point
  obtain ⟨q, hq, -⟩ := hb.exists_point
  have hm : a.offset? t = some p.position := by rw [Block.offset?, hp]; rfl
  have hn : b.offset? t = some q.position := by rw [Block.offset?, hq]; rfl
  constructor
  · intro heq
    rw [hm, hn, Option.some.injEq] at heq
    rcases offset?_lt_of_above ha hb hab hm hn with hlt | ⟨-, hmeet⟩
    · omega
    · exact .inl hmeet
  · rintro (hmeet | ⟨hpb, -, hline, hstop⟩)
    · obtain ⟨h1, h2⟩ := offset?_eq_of_meetsAtEnd ha hab.2.1 hmeet
      rw [h1, h2]
    · -- The upper block would end below the lower one.
      have hpa : a.placement = .after := by rw [hab.2.1, hpb]
      have hlt := hab.2.2
      rw [show a.anchor = a.stop by simp [Block.anchor, hpa],
        show b.anchor = b.stop by simp [Block.anchor, hpb], hstop] at hlt
      omega

end cuts

/-! ## The blocks of a scan -/

/-- Blocks for some of a list of candidates, in any order. -/
def BlocksFor (candidates : List Candidate) (blocks : List Block) : Prop :=
  ∃ attach : Candidate → Option Block,
    (∀ c ∈ candidates, ∀ b ∈ attach c, b.Fits c) ∧ blocks.Perm (candidates.filterMap attach)

section scan
variable {g : Grammar} {file : Path} {t : Text} {change : Option FileChange} {history : LineHistory}
  {blocks : List Block}

theorem BlocksFor.exists_fits {candidates : List Candidate} (h : BlocksFor candidates blocks) {b : Block}
    (hb : b ∈ blocks) : ∃ c ∈ candidates, b.Fits c := by
  obtain ⟨attach, hfits, hperm⟩ := h
  obtain ⟨c, hc, hcb⟩ := List.mem_filterMap.1 (hperm.mem_iff.1 hb)
  exact ⟨c, hc, hfits c hc b hcb⟩

theorem stacked_of_scan (ho : g.OrderedIn t)
    (h : BlocksFor (scanWith g file t change history).1.candidates blocks) : Stacked t blocks := by
  refine ⟨fun b hb => ?_, ?_⟩
  · obtain ⟨c, hc, hcb⟩ := h.exists_fits hb
    exact .of_place (anchor_place hc hcb)
  · obtain ⟨attach, hfits, hperm⟩ := h
    refine (hperm.pairwise_iff fun hab => hab.symm).2 (List.pairwise_filterMap.2 ?_)
    have hnames := List.pairwise_map.1 (scanWith_sound g file t change history).nodup
    refine hnames.imp_of_mem fun {c d} hc hd hcd a ha b hb => ?_
    have hne : c ≠ d := fun heq => hcd (by rw [heq])
    exact candidates_above ho hc hd hne (hfits c hc a ha) (hfits d hd b hb)

/-- **Putting in the blocks of one scan is one simultaneous insertion into
the text as it was scanned.** It never fails, every cut is a place of the
text, and two cuts are the same exactly when the blocks meet at its end. -/
theorem applyBlocks?_eq_weave (ho : g.OrderedIn t)
    (h : BlocksFor (scanWith g file t change history).1.candidates blocks) :
    applyBlocks? t blocks = some (Text.weave (putAt t (byStart blocks)) 0 t) ∧
      (∀ b ∈ blocks, ∃ head tail, t = head ++ tail ∧ b.offset? t = some head.size) ∧
      blocks.Pairwise fun a b => a.offset? t = b.offset? t ↔ a.MeetsAtEnd t b ∨ b.MeetsAtEnd t a := by
  have hstacked := stacked_of_scan ho h
  refine ⟨hstacked.applyBlocks?_eq, fun b hb => ?_, ?_⟩
  · obtain ⟨p, hp, ht⟩ := (hstacked.point b hb).exists_point
    exact ⟨p.head, p.tail, ht, by rw [Block.offset?, hp]; rfl⟩
  · refine hstacked.above.imp_of_mem fun {a b} ha hb hab => ?_
    have hpa := hstacked.point a ha
    have hpb := hstacked.point b hb
    rcases hab with hab | hba
    · exact offset?_eq_iff_of_above hpa hpb hab
    · rw [eq_comm, offset?_eq_iff_of_above hpb hpa hba, or_comm]

end scan

/-! ### Classes whose end token takes in the line feed -/

namespace FeedEnded

def rules : ConstructRules := { indicator := "class", ending := ":\n", docOpen := "#", docClose := "#" }

def shape : Shape :=
  { kind := .classDef, extension := "py", indicator := "class", ending := ":\n", ancestry := none
    docOpen := "#", docClose := "#", openPattern := "#", closePattern := "#", arguments := none
    before := false, withinScope := false, regex := false, ignore := [] }

open Pattern in
def grammar : Grammar where
  shape := shape
  pattern := seqs [group "indicator" (Python.token "class"), plus true (chars .blank),
    group "name" (plus false (chars (.compl .blank))), Python.blanks, group "end" (Python.token ":\n"),
    Python.blanks, repeated true (group "open" (literal '#')) 0 (some 1)]
  splitter := none

set_option maxRecDepth 100000 in
theorem ofRules_rules : Grammar.ofRules .classDef "py" rules {} = .ok grammar := by
  have hshape : Shape.ofRules .classDef "py" rules {} = .ok shape := rfl
  have hparse : Pattern.parse shape.source = .ok grammar.pattern := eq_ok_of_toOption (by decide)
  simp only [Grammar.ofRules, hshape, Except.bind, Grammar.ofShape, hparse]
  rfl

def text : Text := "class A:\nclass B:\n"

def file : Path := ⟨"a.py"⟩

/-- A comment for each class, the lower one first. -/
def blocks : List Block := [⟨"# B\n", 9, 18, .after, false⟩, ⟨"# A\n", 0, 9, .after, false⟩]

def comment (c : Candidate) : Block := ⟨"# ".toList ++ c.name ++ ['\n'], c.start, c.stop, c.placement, c.withinScope⟩

set_option maxRecDepth 100000 in
theorem scanned : grammar.OrderedIn text ∧
    blocks.Perm ((scanWith grammar file text none {}).1.candidates.filterMap (some ∘ comment)) := by decide

theorem ordered : grammar.OrderedIn text := scanned.1

theorem blocksFor : BlocksFor (scanWith grammar file text none {}).1.candidates blocks := by
  refine ⟨some ∘ comment, ?_, scanned.2⟩
  rintro c - b hb
  cases hb
  exact ⟨rfl, rfl, rfl⟩

theorem applyBlocks?_text :
    grammar.OrderedIn text ∧ BlocksFor (scanWith grammar file text none {}).1.candidates blocks ∧
      applyBlocks? text blocks = some (Text.weave (putAt text (byStart blocks)) 0 text) ∧
      (∀ b ∈ blocks, ∃ head tail, text = head ++ tail ∧ b.offset? text = some head.size) ∧
      blocks.Pairwise fun a b =>
        a.offset? text = b.offset? text ↔ a.MeetsAtEnd text b ∨ b.MeetsAtEnd text a :=
  ⟨ordered, blocksFor, applyBlocks?_eq_weave ordered blocksFor⟩

/-- Both classes are candidates, and both blocks go to the end of the text. -/
theorem same_cut :
    Grammar.ofRules .classDef "py" rules {} = .ok grammar ∧ grammar.OrderedIn text ∧
      BlocksFor (scanWith grammar file text none {}).1.candidates blocks ∧
      ¬blocks.Pairwise fun a b => a.offset? text ≠ b.offset? text :=
  ⟨ofRules_rules, ordered, blocksFor, by decide +kernel⟩

end FeedEnded

/-! ## Cuts and signatures -/

section signatures
variable {g : Grammar} {file : Path} {t : Text} {change : Option FileChange} {history : LineHistory}

/-- A cut is the start of a line: that of the construct's start, or the one
after that of the signature's end. Without a line feed after the signature it
is the end of the text. -/
theorem offset?_lineStart {a : Block} {o : Nat} (h : a.PointIn t) (ho : a.offset? t = some o) :
    (∀ n, o ≤ n ↔ t.lineOf a.anchor + (if a.placement = .after then 1 else 0) ≤ t.lineOf n) ∨
      a.placement = .after ∧ o = t.size ∧ t.lineOf a.stop = 1 + t.feeds := by
  cases h with
  | before above line rest ht hp hstart habove hline =>
    refine .inl fun n => ?_
    subst ht
    have hrow : Text.lineOf (above ++ line ++ rest) a.anchor = 1 + above.feeds := by
      rw [show a.anchor = (above ++ line).size by simpa [Block.anchor, hp] using hstart, Text.lineOf_append,
        Text.feeds_append, Text.feeds_eq_zero.2 hline, Nat.add_zero]
    rw [Block.offset?, Block.point?_before hp hstart habove hline] at ho
    simp only [Option.map_some, Point.position, Option.some.injEq] at ho
    rw [hrow, ← ho, hp, List.append_assoc, Text.lineStart_le_iff habove (line ++ rest),
      Text.lineOf_append]
    simp
  | after head line tail ht hp hstop hline =>
    refine .inl fun n => ?_
    have hflat : t = (head ++ (line ++ ['\n'])) ++ tail := by rw [ht]; simp
    have hrow : t.lineOf a.anchor = 1 + head.feeds := by
      rw [show a.anchor = head.size by simpa [Block.anchor, hp] using hstop, ht, Text.lineOf_append]
    rw [ht, Block.offset?, Block.point?_after hp hstop hline] at ho
    simp only [Option.map_some, Point.position, Option.some.injEq] at ho
    rw [hrow, ← ho, hp, hflat, Text.lineStart_le_iff (.inr ⟨head ++ line, by simp⟩) tail, Text.lineOf_append,
      Text.feeds_append, Text.feeds_append, Text.feeds_eq_zero.2 hline, if_pos rfl]
    simp only [Text.feeds_cons_feed, Text.feeds_nil, Nat.zero_add, Nat.add_assoc]
  | fresh head rest ht hp hstop hrest =>
    subst ht
    rw [Block.offset?, Block.point?_fresh hp hstop hrest] at ho
    refine .inr ⟨hp, by simpa [Point.position] using ho.symm, ?_⟩
    rw [hstop, Text.lineOf_append, Text.feeds_append, Text.feeds_eq_zero.2 hrest, Nat.add_zero]

/-- A signature spans lines and shares the line that the block of a candidate
goes next to: it starts above that line and ends on it, or it starts on it and
ends below. -/
def Candidate.CutsThrough (t : Text) (c : Candidate) (s : Span) : Prop :=
  match c.placement with
  | .before => t.lineOf s.start < t.lineOf c.start ∧ t.lineOf (s.stop - 1) = t.lineOf c.start
  | .after => t.lineOf s.start = t.lineOf c.stop ∧ t.lineOf c.stop < t.lineOf (s.stop - 1)

theorem Grammar.stop_le_size {s : Span} (hs : s ∈ g.signatures t) : s.stop ≤ t.size := by
  rw [Grammar.signatures_eq_map_signed] at hs
  obtain ⟨⟨n, s⟩, hns, rfl⟩ := List.mem_map.1 hs
  obtain ⟨-, upto, -, ht, hstop⟩ := Grammar.signed_cuts hns
  have hsize := congrArg Text.size ht
  rw [Text.size_append] at hsize
  show s.stop ≤ t.size
  omega

/-- Two spans of a text are the same or do not overlap. -/
def Span.Apart (s u : Span) : Prop :=
  s = u ∨ max s.start s.stop ≤ min u.start u.stop ∨ max u.start u.stop ≤ min s.start s.stop

theorem Grammar.signatures_apart (hk : g.shape.kind ≠ .header) {m : Match} {s u : Span}
    (hs : s ∈ g.signatures t) (hu : (m, u) ∈ g.signed t) : s.Apart u := by
  rw [Grammar.signatures_eq_map_signed] at hs
  obtain ⟨⟨n, s⟩, hns, rfl⟩ := List.mem_map.1 hs
  rcases trichotomy_of_pairwise (Grammar.signed_pairwise hk) hns hu with heq | h | h
  · exact .inl (congrArg Prod.snd heq)
  · exact .inr (.inl h)
  · exact .inr (.inr h)

/-- Where the line on which one signature starts begins inside another. -/
theorem Span.Apart.cut_before_iff {s u : Span} (h : s.Apart u) {o : Nat}
    (ho : ∀ n, o ≤ n ↔ t.lineOf u.start ≤ t.lineOf n) :
    s.start < o ∧ o < s.stop ↔
      t.lineOf s.start < t.lineOf u.start ∧ t.lineOf (s.stop - 1) = t.lineOf u.start := by
  have hstart := ho s.start
  have hlast := ho (s.stop - 1)
  rcases h with rfl | h | h
  · omega
  · have hline := Text.lineOf_mono t (show s.stop - 1 ≤ u.start by omega)
    omega
  · have hline := Text.lineOf_mono t (show u.start ≤ s.start by omega)
    omega

/-- Where the line on which one signature ends is over inside another. -/
theorem Span.Apart.cut_after_iff {s u : Span} (h : s.Apart u) {o : Nat}
    (ho : ∀ n, o ≤ n ↔ t.lineOf u.stop + 1 ≤ t.lineOf n) :
    s.start < o ∧ o < s.stop ↔ t.lineOf s.start = t.lineOf u.stop ∧ t.lineOf u.stop < t.lineOf (s.stop - 1) := by
  have hstart := ho s.start
  have hlast := ho (s.stop - 1)
  rcases h with rfl | h | h
  · have hline := Text.lineOf_mono t (Nat.sub_le s.stop 1)
    omega
  · have hline := Text.lineOf_mono t (show s.stop - 1 ≤ u.stop by omega)
    omega
  · have hline := Text.lineOf_mono t (show u.stop ≤ s.start by omega)
    omega

/-- **A block is put inside a signature exactly when that signature spans
lines and shares the line that the block goes next to.** -/
theorem cut_in_signature_iff (hk : g.shape.kind ≠ .header) {c : Candidate}
    (hc : c ∈ (scanWith g file t change history).1.candidates) {b : Block} (hb : b.Fits c) {s : Span}
    (hs : s ∈ g.signatures t) :
    ∃ p, b.offset? t = some p ∧ (s.start < p ∧ p < s.stop ↔ c.CutsThrough t s) := by
  have hpoint : b.PointIn t := .of_place (anchor_place hc hb)
  obtain ⟨m, u, hu, -, -, -, -, rfl⟩ := mem_candidates hc
  have hapart := Grammar.signatures_apart hk hs hu
  obtain ⟨q, hq, -⟩ := hpoint.exists_point
  have hcut : b.offset? t = some q.position := by rw [Block.offset?, hq]; rfl
  refine ⟨q.position, hcut, ?_⟩
  cases hp : b.placement with
  | before =>
    have hplace : g.shape.placement = .before := hb.placement.symm.trans hp
    simp only [Candidate.CutsThrough, Grammar.candidateOf, hplace]
    rcases offset?_lineStart hpoint hcut with hline | ⟨hafter, -⟩
    · rw [show b.anchor = u.start by simp only [Block.anchor, hp]; exact hb.start, hp] at hline
      exact hapart.cut_before_iff hline
    · rw [hp] at hafter
      cases hafter
  | after =>
    have hplace : g.shape.placement = .after := hb.placement.symm.trans hp
    simp only [Candidate.CutsThrough, Grammar.candidateOf, hplace]
    rcases offset?_lineStart hpoint hcut with hline | ⟨-, hend, hfeeds⟩
    · rw [show b.anchor = u.stop by simp only [Block.anchor, hp]; exact hb.stop, hp] at hline
      exact hapart.cut_after_iff hline
    · -- No line feed follows the candidate: the cut is the end of the text, and no line is below.
      rw [show b.stop = u.stop from hb.stop] at hfeeds
      have hsize := Grammar.stop_le_size hs
      have hlast : t.lineOf (s.stop - 1) ≤ 1 + t.feeds :=
        Nat.add_le_add_left (Text.feedsBefore_le_feeds t _) 1
      omega

end signatures

/-! ### A class that starts on the line of another and ends below it -/

namespace SharedLine

def text : Text := "class A: class B(\n x):\n    pass\n"

def file : Path := ⟨"a.py"⟩

/-- What a scan says about the upper class. -/
def upper : Candidate :=
  { kind := .classDef, name := "A", text := "class A:", start := 0, stop := 8, line := 1
    indentation := " ", arguments := [], placement := .after, withinScope := true, file, block := none }

/-- The signature of the lower class. -/
def lower : Span :=
  ⟨⟨some ' ', "class B(\n x):\n    pass\n", 9⟩, ⟨some ':', "\n    pass\n", 22⟩⟩

def block : Block := ⟨" \"\"\"\"\"\"\n", 0, 8, .after, true⟩

set_option maxRecDepth 100000 in
theorem found : upper ∈ (scanWith Python.classGrammar file text none {}).1.candidates ∧
    lower ∈ Python.classGrammar.signatures text := by decide

theorem mem_scan : upper ∈ (scanWith Python.classGrammar file text none {}).1.candidates := found.1

theorem mem_signatures : lower ∈ Python.classGrammar.signatures text := found.2

theorem cut_in_signature_iff_lower :
    Python.classGrammar.shape.kind ≠ .header ∧
      upper ∈ (scanWith Python.classGrammar file text none {}).1.candidates ∧ block.Fits upper ∧
      lower ∈ Python.classGrammar.signatures text ∧
      ∃ p, block.offset? text = some p ∧
        (lower.start < p ∧ p < lower.stop ↔ upper.CutsThrough text lower) :=
  ⟨by decide, mem_scan, ⟨rfl, rfl, rfl⟩, mem_signatures,
    cut_in_signature_iff (by decide) mem_scan ⟨rfl, rfl, rfl⟩ mem_signatures⟩

/-- The block of the upper class goes between the lines of the lower one's
signature. -/
theorem block_splits_lower :
    upper ∈ (scanWith Python.classGrammar file text none {}).1.candidates ∧
      lower ∈ Python.classGrammar.signatures text ∧ block.Fits upper ∧
      ∃ p, block.offset? text = some p ∧ lower.start < p ∧ p < lower.stop :=
  ⟨mem_scan, mem_signatures, ⟨rfl, rfl, rfl⟩, 18, by decide +kernel⟩

end SharedLine

end DocScribe
