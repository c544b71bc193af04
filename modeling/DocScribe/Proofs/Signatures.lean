/-
Signatures and candidates of one scan.

Matches do not overlap, so neither do signatures (`Grammar.signed_pairwise`).
That the indicator of a match starts before its end token ends has to be asked
for (`Grammar.OrderedIn`): tokens may be patterns, and a pattern that reopens
the groups around it can turn the order round. With it, the text of a signature
is what stands between its two offsets (`Grammar.OrderedIn.text_eq`). Without it,
nothing may stand between them, and the scan goes on with no text at all
(`Grammar.text_eq_nil_of_stop_le`), where cutting at the two offsets would fail.

A candidate owns the line its block goes next to. Two candidates of one scan
therefore stand on different lines, and one of them is above the other in
every respect that splicing looks at (`candidates_above`).
-/
import DocScribe.Proofs.LineFacts
import DocScribe.Proofs.SessionFacts
import DocScribe.Scan.Basic

namespace DocScribe

theorem trichotomy_of_pairwise {α : Type} {R : α → α → Prop} {l : List α} (h : l.Pairwise R) {a b : α}
    (ha : a ∈ l) (hb : b ∈ l) : a = b ∨ R a b ∨ R b a := by
  have hpair : l.Pairwise fun a b => a = b ∨ R a b ∨ R b a := h.imp fun hr => .inr (.inl hr)
  have hflip : l.Pairwise (flip fun a b => a = b ∨ R a b ∨ R b a) := h.imp fun hr => .inr (.inr hr)
  exact hpair.forall_of_forall_of_flip (fun _ _ => .inl rfl) hflip ha hb

namespace Grammar

/-- In every match in a text, the indicator starts before the end token ends. -/
def OrderedIn (g : Grammar) (t : Text) : Prop :=
  ∀ m ∈ g.pattern.allMatches t, ∀ indicator ∈ m.group? "indicator", ∀ ending ∈ m.group? "end",
    indicator.start < ending.stop

instance (g : Grammar) (t : Text) : Decidable (g.OrderedIn t) :=
  inferInstanceAs (Decidable (∀ m ∈ g.pattern.allMatches t, ∀ indicator ∈ m.group? "indicator",
    ∀ ending ∈ m.group? "end", indicator.start < ending.stop))

/-- The matches of a text that have a signature, with their signatures. -/
def signed (g : Grammar) (t : Text) : List (Match × Span) :=
  (g.pattern.allMatches t).filterMap fun m => (g.signature? t m).map (m, ·)

variable {g : Grammar} {t : Text}

theorem mem_signed {m : Match} {s : Span} :
    (m, s) ∈ g.signed t ↔ m ∈ g.pattern.allMatches t ∧ g.signature? t m = some s := by
  simp only [signed, List.mem_filterMap, Option.map_eq_some_iff, Prod.mk.injEq]
  constructor
  · rintro ⟨m', hm, s', hs, rfl, rfl⟩
    exact ⟨hm, hs⟩
  · rintro ⟨hm, hs⟩
    exact ⟨m, hm, s, hs, rfl, rfl⟩

theorem signatures_eq_map_signed : g.signatures t = (g.signed t).map (·.2) := by
  simp only [signatures, signed, List.map_filterMap, Option.map_map, Function.comp_def, Option.map_id']

theorem signature?_of_ne_header (hk : g.shape.kind ≠ .header) {m : Match} {s : Span}
    (hs : g.signature? t m = some s) :
    ∃ indicator ending, m.group? "indicator" = some indicator ∧ m.group? "end" = some ending ∧
      s = ⟨indicator.first, ending.last⟩ := by
  unfold signature? at hs
  split at hs
  · next h => exact absurd h hk
  · obtain ⟨indicator, hi, hs⟩ := Option.bind_eq_some_iff.1 hs
    obtain ⟨ending, he, rfl⟩ := Option.map_eq_some_iff.1 hs
    exact ⟨indicator, ending, hi, he, rfl⟩

/-- Both ends of a signature lie within its match. -/
theorem signature?_within (hk : g.shape.kind ≠ .header) {m : Match} {s : Span}
    (hm : m ∈ g.pattern.allMatches t) (hs : g.signature? t m = some s) :
    (m.span.first.Reaches s.first ∧ s.first.Reaches m.span.last) ∧
      (m.span.first.Reaches s.last ∧ s.last.Reaches m.span.last) := by
  obtain ⟨indicator, ending, hi, he, rfl⟩ := signature?_of_ne_header hk hs
  obtain ⟨-, -, hgroups⟩ := (Pattern.allMatches_foundFrom g.pattern t).1 m hm
  obtain ⟨gi, hgi, rfl⟩ := Match.group?_mem hi
  obtain ⟨ge, hge, rfl⟩ := Match.group?_mem he
  obtain ⟨i1, i2, i3⟩ := hgroups gi hgi
  obtain ⟨e1, e2, e3⟩ := hgroups ge hge
  exact ⟨⟨i1, i2.trans i3⟩, e1.trans e2, e3⟩

/-- Both ends of a signature are places of the text. -/
theorem signed_places {m : Match} {s : Span} (h : (m, s) ∈ g.signed t) :
    (Cursor.start t).Reaches s.first ∧ (Cursor.start t).Reaches s.last := by
  obtain ⟨hm, hs⟩ := mem_signed.1 h
  by_cases hk : g.shape.kind = .header
  · simp only [signature?, hk, Option.some.injEq] at hs
    subst hs
    exact ⟨.refl _, .refl _⟩
  · obtain ⟨hstart, -⟩ := (Pattern.allMatches_foundFrom g.pattern t).1 m hm
    obtain ⟨⟨hfirst, -⟩, hlast, -⟩ := signature?_within hk hm hs
    exact ⟨hstart.trans hfirst, hstart.trans hlast⟩

/-- Both ends of a signature cut the text. -/
theorem signed_cuts {m : Match} {s : Span} (h : (m, s) ∈ g.signed t) :
    ∃ head upto, (t = head ++ s.first.rest ∧ s.start = head.size) ∧ t = upto ++ s.last.rest ∧ s.stop = upto.size := by
  obtain ⟨hfirst, hlast⟩ := signed_places h
  obtain ⟨head, ht, hstart, -⟩ := Cursor.cut?_of_reaches hfirst
  obtain ⟨upto, ht', hstop, -⟩ := Cursor.cut?_of_reaches hlast
  exact ⟨head, upto, ⟨ht, hstart⟩, ht', hstop⟩

/-- **Signatures do not overlap** and stand in the order of their matches,
whichever way round their own ends stand. -/
theorem signed_pairwise (hk : g.shape.kind ≠ .header) :
    (g.signed t).Pairwise fun a b => max a.2.start a.2.stop ≤ min b.2.start b.2.stop := by
  unfold signed
  rw [List.pairwise_filterMap]
  refine (Pattern.allMatches_pairwise g.pattern t).imp_of_mem fun {m n} hm hn hmn a ha b hb => ?_
  obtain ⟨s, hs, rfl⟩ := Option.map_eq_some_iff.1 ha
  obtain ⟨u, hu, rfl⟩ := Option.map_eq_some_iff.1 hb
  obtain ⟨⟨-, h1⟩, -, h2⟩ := signature?_within hk hm hs
  obtain ⟨⟨h3, -⟩, h4, -⟩ := signature?_within hk hn hu
  have hle := hmn.offset_le
  have := h1.offset_le
  have := h2.offset_le
  have := h3.offset_le
  have := h4.offset_le
  simp only [Span.start, Span.stop]
  omega

theorem OrderedIn.start_lt_stop (ho : g.OrderedIn t) (hk : g.shape.kind ≠ .header) {m : Match} {s : Span}
    (h : (m, s) ∈ g.signed t) : s.start < s.stop := by
  obtain ⟨hm, hs⟩ := mem_signed.1 h
  obtain ⟨indicator, ending, hi, he, rfl⟩ := signature?_of_ne_header hk hs
  exact ho m hm indicator hi ending he

/-- Two ends of a signature that are the right way round have its text between
them. -/
theorem text_of_start_le {m : Match} {s : Span} (h : (m, s) ∈ g.signed t) (hle : s.start ≤ s.stop) :
    ∃ head tail, t = head ++ (s.text ++ tail) ∧ s.start = head.size ∧ s.stop = (head ++ s.text).size := by
  obtain ⟨head, upto, ⟨ht, hstart⟩, ht', hstop⟩ := signed_cuts h
  have hsize : head.size ≤ upto.size := by omega
  obtain ⟨middle, hupto, hrest⟩ := Text.append_of_size_le (ht.symm.trans ht') hsize
  have htext : s.text = middle := by simp [Span.text, Cursor.textTo, hrest]
  rw [htext]
  exact ⟨head, s.last.rest, by rw [ht, hrest], hstart, hstop.trans (by rw [hupto])⟩

/-- Two ends that are the other way round have nothing between them. -/
theorem text_eq_nil_of_stop_le {m : Match} {s : Span} (h : (m, s) ∈ g.signed t) (hle : s.stop ≤ s.start) :
    s.text = [] := by
  obtain ⟨head, upto, ⟨ht, hstart⟩, ht', hstop⟩ := signed_cuts h
  have hsize : upto.size ≤ head.size := by omega
  obtain ⟨middle, -, hrest⟩ := Text.append_of_size_le (ht'.symm.trans ht) hsize
  simp [Span.text, Cursor.textTo, hrest]

theorem OrderedIn.start_le_stop (ho : g.OrderedIn t) {m : Match} {s : Span} (h : (m, s) ∈ g.signed t) :
    s.start ≤ s.stop := by
  by_cases hk : g.shape.kind = .header
  · have hs := (mem_signed.1 h).2
    simp only [signature?, hk, Option.some.injEq] at hs
    subst hs
    exact Nat.le_refl _
  · exact Nat.le_of_lt (ho.start_lt_stop hk h)

/-- **Where the groups are in order**, every signature stands in the text as it
is, between its two offsets. -/
theorem OrderedIn.text_eq (ho : g.OrderedIn t) {m : Match} {s : Span} (h : (m, s) ∈ g.signed t) :
    ∃ head tail, t = head ++ (s.text ++ tail) ∧ s.start = head.size ∧ s.stop = (head ++ s.text).size :=
  text_of_start_le h (ho.start_le_stop h)

/-! ## What a scan finds -/

/-- Whether the change, if there is one, touches a text on a line of a text
that already received blocks. -/
def touched (change : Option FileChange) (history : LineHistory) (line : Nat) (text : Text) : Bool :=
  match change with
  | some c => c.touches (history.initialLine line) text
  | none => true

/-- Where the owner of a line starts, for the signatures of a text. -/
def ownerIn (g : Grammar) (t : Text) : Nat → Option Nat :=
  g.owner? (g.anchored (LineTable.ofText t) (g.signatures t))

theorem findings_eq (file : Path) (change : Option FileChange) (history : LineHistory) :
    g.findings file t change history =
      (g.signed t).map fun p =>
        g.judge file t (LineTable.ofText t) (g.ownerIn t) (touched change history) p.1 p.2 := by
  simp only [findings, signed, List.map_filterMap, Option.map_map, Function.comp_def]
  rfl

/-- The offset that decides which line the block of a signature goes next to. -/
def anchorOf (g : Grammar) (s : Span) : Nat := if g.shape.before then s.start else s.stop

theorem anchorLine_eq (s : Span) : g.anchorLine (LineTable.ofText t) s = t.lineOf (g.anchorOf s) :=
  LineTable.lineOf_ofText t _

/-- When a signature comes to a candidate, and which one. -/
theorem judge_candidate? {file : Path} {owner : Nat → Option Nat} {touched : Nat → Text → Bool}
    {m : Match} {s : Span} {c : Candidate} :
    (g.judge file t (LineTable.ofText t) owner touched m s).candidate? = some c ↔
      (m.group? g.documentedGroup).isSome = false ∧ owner (t.lineOf (g.anchorOf s)) = some s.start ∧
        g.shape.ignore.contains (g.nameOf file m) = false ∧ touched (t.lineOf s.start) s.text = true ∧
        c = g.candidateOf file t (t.lineOf s.start) m s := by
  simp only [judge, anchorLine_eq, LineTable.lineOf_ofText]
  split
  · next h => simp [Finding.candidate?, h]
  split
  · next h => simp [Finding.candidate?, h]
  split
  · next h => simp only [Finding.candidate?, h]; simp
  split
  · next h => simp only [Finding.candidate?]; simp_all
  · next h1 h2 h3 h4 =>
    have hdoc : (m.group? g.documentedGroup).isSome = false := by simpa using h1
    have howner : owner (t.lineOf (g.anchorOf s)) = some s.start := by simpa using h2
    have hname : g.shape.ignore.contains (g.nameOf file m) = false := by simpa using h3
    have htouched : touched (t.lineOf s.start) s.text = true := by simpa using h4
    simp only [Finding.candidate?, Option.some.injEq, hdoc, howner, hname, htouched, true_and]
    exact eq_comm

end Grammar

/-- The offset that decides which line a block goes next to. -/
def Block.anchor (b : Block) : Nat :=
  match b.placement with
  | .before => b.start
  | .after => b.stop

/-- A block that belongs to a candidate. -/
structure Block.Fits (b : Block) (c : Candidate) : Prop where
  start : b.start = c.start
  stop : b.stop = c.stop
  placement : b.placement = c.placement

variable {g : Grammar} {file : Path} {t : Text} {change : Option FileChange} {history : LineHistory}

theorem mem_found {c : Candidate} :
    c ∈ (g.findings file t change history).filterMap Finding.candidate? ↔
      ∃ m s, (m, s) ∈ g.signed t ∧
        (m.group? g.documentedGroup).isSome = false ∧
        g.ownerIn t (t.lineOf (g.anchorOf s)) = some s.start ∧
        g.shape.ignore.contains (g.nameOf file m) = false ∧
        Grammar.touched change history (t.lineOf s.start) s.text = true ∧
        c = g.candidateOf file t (t.lineOf s.start) m s := by
  simp only [Grammar.findings_eq, List.mem_filterMap, List.mem_map]
  constructor
  · rintro ⟨f, ⟨⟨m, s⟩, hms, rfl⟩, hc⟩
    exact ⟨m, s, hms, Grammar.judge_candidate?.1 hc⟩
  · rintro ⟨m, s, hms, hc⟩
    exact ⟨_, ⟨(m, s), hms, rfl⟩, Grammar.judge_candidate?.2 hc⟩

/-- The candidates of a scan are among those that it finds. -/
theorem found_of_mem_candidates {c : Candidate} (h : c ∈ (scanWith g file t change history).1.candidates) :
    c ∈ (g.findings file t change history).filterMap Finding.candidate? := by
  rcases Session.mem_insertAll h with h | h
  · exact h
  · simp [Session.empty] at h

/-- A candidate of a scan is the candidate of a signature that owns its line. -/
theorem mem_candidates {c : Candidate} (h : c ∈ (scanWith g file t change history).1.candidates) :
    ∃ m s, (m, s) ∈ g.signed t ∧
      (m.group? g.documentedGroup).isSome = false ∧
      g.ownerIn t (t.lineOf (g.anchorOf s)) = some s.start ∧
      g.shape.ignore.contains (g.nameOf file m) = false ∧
      Grammar.touched change history (t.lineOf s.start) s.text = true ∧
      c = g.candidateOf file t (t.lineOf s.start) m s :=
  mem_found.1 (found_of_mem_candidates h)

theorem scanWith_sound (g : Grammar) (file : Path) (t : Text) (change : Option FileChange)
    (history : LineHistory) : (scanWith g file t change history).1.Sound :=
  (Session.Sound.empty file g.shape.kind).insertAll _

theorem Block.Fits.anchor_eq {b : Block} {line : Nat} {m : Match} {s : Span}
    (h : b.Fits (g.candidateOf file t line m s)) : b.anchor = g.anchorOf s := by
  have hp := h.placement
  simp only [Grammar.candidateOf, Shape.placement] at hp
  unfold Block.anchor Grammar.anchorOf
  split at hp
  · simp [h.start, Grammar.candidateOf, *]
  · simp [h.stop, Grammar.candidateOf, *]

/-- One block is above another in a text: its construct starts earlier, and
it goes next to an earlier line. -/
def Block.Above (t : Text) (a b : Block) : Prop :=
  a.start < b.start ∧ a.placement = b.placement ∧ t.lineOf a.anchor < t.lineOf b.anchor

/-- **Of two candidates of one scan, one is above the other.** -/
theorem candidates_above (ho : g.OrderedIn t) {c d : Candidate}
    (hc : c ∈ (scanWith g file t change history).1.candidates)
    (hd : d ∈ (scanWith g file t change history).1.candidates) (hne : c ≠ d) {a b : Block}
    (ha : a.Fits c) (hb : b.Fits d) : a.Above t b ∨ b.Above t a := by
  obtain ⟨m, s, hms, -, hown, -, -, rfl⟩ := mem_candidates hc
  obtain ⟨n, u, hnu, -, hown', -, -, rfl⟩ := mem_candidates hd
  have hplace : a.placement = b.placement := ha.placement.trans hb.placement.symm
  by_cases hk : g.shape.kind = .header
  · -- Every header has the name of its file, and a session has one candidate to a name.
    have hname : g.nameOf file m = g.nameOf file n := by simp [Grammar.nameOf, hk]
    have hnames := List.pairwise_map.1 (scanWith_sound g file t change history).nodup
    rcases trichotomy_of_pairwise hnames hc hd with heq | hdiff | hdiff
    · exact absurd heq hne
    · exact absurd hname hdiff
    · exact absurd hname.symm hdiff
  have order : ∀ {m n : Match} {s u : Span} {a b : Block}, (m, s) ∈ g.signed t → (n, u) ∈ g.signed t →
      max s.start s.stop ≤ min u.start u.stop → g.ownerIn t (t.lineOf (g.anchorOf s)) = some s.start →
      g.ownerIn t (t.lineOf (g.anchorOf u)) = some u.start →
      a.Fits (g.candidateOf file t (t.lineOf s.start) m s) →
      b.Fits (g.candidateOf file t (t.lineOf u.start) n u) → a.placement = b.placement → a.Above t b := by
    intro m n s u a b hs hu hsu hos hou ha hb hplace
    have hlt := ho.start_lt_stop hk hs
    have hlt' := ho.start_lt_stop hk hu
    have hstart : s.start < u.start := by omega
    have hanchor : g.anchorOf s ≤ g.anchorOf u := by
      simp only [Grammar.anchorOf]
      split <;> omega
    refine ⟨by rw [ha.start, hb.start]; exact hstart, hplace, ?_⟩
    rw [ha.anchor_eq, hb.anchor_eq]
    refine Nat.lt_of_le_of_ne (Text.lineOf_mono t hanchor) fun heq => ?_
    rw [heq, hou] at hos
    simp only [Option.some.injEq] at hos
    omega
  rcases trichotomy_of_pairwise (Grammar.signed_pairwise hk) hms hnu with heq | hsu | hus
  · cases heq
    exact absurd rfl hne
  · exact .inl (order hms hnu hsu hown hown' ha hb hplace)
  · exact .inr (order hnu hms hus hown' hown hb ha hplace.symm)

/-- The block of a candidate goes next to a place of the text. -/
theorem anchor_place {c : Candidate} (hc : c ∈ (scanWith g file t change history).1.candidates) {b : Block}
    (hb : b.Fits c) : ∃ head tail, t = head ++ tail ∧ b.anchor = head.size := by
  obtain ⟨m, s, hms, -, -, -, -, rfl⟩ := mem_candidates hc
  obtain ⟨head, upto, ⟨ht, hstart⟩, ht', hstop⟩ := Grammar.signed_cuts hms
  rw [hb.anchor_eq, Grammar.anchorOf]
  split
  · exact ⟨head, _, ht, hstart⟩
  · exact ⟨upto, _, ht', hstop⟩

end DocScribe
