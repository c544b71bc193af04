/-
What a scan finds, by sweeping.

A grammar reads a form when its pattern matches exactly where a signature of
that form starts, takes in the gap behind it, and tells whether a docstring
opens there (`Grammar.Reads`). The signatures in a text are then those that a
sweep takes (`Grammar.Reads.signed_eq`), and the candidates of a scan are the
open ones (`Grammar.Reads.found_open`, `Grammar.Reads.open_found`).
-/
import DocScribe.Proofs.PatternRuns
import DocScribe.Proofs.Signatures
import DocScribe.Proofs.SweepSettled
import Mathlib.Data.List.Forall2

namespace DocScribe

/-- A match of the signature `x` at a place, with the text `y` behind it. -/
structure Grammar.Matched (g : Grammar) (m : Match) (place : Cursor) (x y : Text) : Prop where
  rest : place.rest = x ++ y
  span : m.span = ⟨place, place.ahead (x ++ gap y)⟩
  signature : ∀ t, g.signature? t m = some ⟨place, place.ahead x⟩
  documented : (m.group? g.documentedGroup).isSome = opened y

/-- The pattern of a grammar finds the signatures of a form, and blocks go
below them. -/
structure Grammar.Reads (g : Grammar) (F : Form) : Prop where
  kind : g.shape.kind ≠ .header
  below : g.shape.before = false
  quiet : ∀ place, F.Quiet place.rest → g.pattern.matchAt? place = none
  sig : ∀ place x y, place.rest = x ++ y → F.Sig x → ∃ m, g.pattern.matchAt? place = some m ∧ g.Matched m place x y

theorem Grammar.Matched.last {g : Grammar} {m : Match} {place : Cursor} {x y : Text}
    (h : g.Matched m place x y) :
    m.span.last.rest = past y ∧ place.Reaches m.span.last := by
  have hrest : place.rest = (x ++ gap y) ++ past y := by rw [h.rest, List.append_assoc, gap_append_past]
  rw [h.span]
  exact ⟨Cursor.ahead_rest hrest, Cursor.reaches_ahead hrest⟩

/-- The signature of a candidate stands at a place of a text, and its block goes
below. -/
structure Candidate.Stands (c : Candidate) (t a x y : Text) : Prop where
  split : t = a ++ (x ++ y)
  text : c.text = x
  start : c.start = a.size
  stop : c.stop = (a ++ x).size
  placement : c.placement = .after

theorem Candidate.Stands.after? {c : Candidate} {t a x y : Text} (h : c.Stands t a x y) :
    t.after? c.stop = some y := by
  rw [h.stop, h.split, ← List.append_assoc, Text.after?, Text.cut?_size_append]
  rfl

namespace Grammar.Reads

variable {g : Grammar} {F : Form}

/-- The leftmost match is the first signature of the sweep. -/
theorem find?_of_sweeps (hreads : g.Reads F) (place : Cursor) {l : List (Text × Text)}
    (h : F.Sweeps place.rest l) :
    (l = [] ∧ g.pattern.find? place = none) ∨
      ∃ x y l' spot m, l = (x, y) :: l' ∧ place.Reaches spot ∧ g.pattern.find? place = some m ∧
        g.Matched m spot x y ∧ F.Sig x ∧ F.Sweeps (past y) l' := by
  obtain ⟨prev, rest, offset⟩ := place
  unfold Form.Sweeps at h
  dsimp only at h
  generalize hu : ([] : Text) = u at h
  induction h generalizing prev offset with
  | done t =>
    subst hu
    exact .inl ⟨rfl, hreads.quiet ⟨prev, [], offset⟩ .nil⟩
  | @skip c t u l hquiet hrest ih =>
    subst hu
    have hnone := hreads.quiet ⟨prev, c :: t, offset⟩ hquiet
    have hnext : g.pattern.find? ⟨prev, c :: t, offset⟩ = g.pattern.find? ⟨some c, t, offset + c.utf8Size⟩ := by
      simp only [Pattern.find?, Pattern.findFrom, hnone]
    rw [hnext]
    rcases ih (some c) (offset + c.utf8Size) rfl with hnone | ⟨x, y, l', spot, m, hl, hreach, hfind, hm⟩
    · exact .inl hnone
    · refine .inr ⟨x, y, l', spot, m, hl, Cursor.Reaches.trans ?_ hreach, hfind, hm⟩
      exact Cursor.reaches_step (a := ⟨prev, c :: t, offset⟩) rfl
  | @take x y u l hx hrest _ =>
    subst hu
    obtain ⟨m, hmatch, hm⟩ := hreads.sig ⟨prev, x ++ y, offset⟩ x y rfl hx
    refine .inr ⟨x, y, l, _, m, rfl, .refl _, ?_, hm, hx, hrest⟩
    obtain ⟨c, rest, rfl, -⟩ := F.start x hx
    simp only [List.cons_append] at hmatch ⊢
    simp only [Pattern.find?, Pattern.findFrom, hmatch]

/-- What the matches of a text are: one for each signature of the sweep, in
its order. -/
def Along (g : Grammar) (place : Cursor) (ms : List Match) (l : List (Text × Text)) : Prop :=
  List.Forall₂ (fun m p => ∃ spot, place.Reaches spot ∧ g.Matched m spot p.1 p.2) ms l

theorem Along.of_reaches {a b : Cursor} {ms : List Match} {l : List (Text × Text)} (hab : a.Reaches b)
    (h : Along g b ms l) : Along g a ms l :=
  List.Forall₂.imp (fun _ _ ⟨spot, hreach, hm⟩ => ⟨spot, hab.trans hreach, hm⟩) h

theorem matchesAfter_along (hreads : g.Reads F) {place : Cursor} {l : List (Text × Text)} {fuel : Nat}
    (hfuel : l.length ≤ fuel)
    (h : F.Sweeps place.rest l) : Along g place (g.pattern.matchesAfter fuel place) l := by
  induction fuel generalizing place l with
  | zero =>
    obtain rfl : l = [] := by simpa using hfuel
    exact .nil
  | succ fuel ih =>
    rcases hreads.find?_of_sweeps place h with ⟨rfl, hfind⟩ | ⟨x, y, l', spot, m, rfl, hreach, hfind, hm, hx, hrest⟩
    · simp only [Pattern.matchesAfter, Pattern.findNext?, hfind]
      exact .nil
    · have hpos := Text.size_pos_of_ne_nil (Form.ne_nil hx)
      have hstop : m.span.stop ≠ place.offset := by
        have hle := hreach.offset_le
        rw [Span.stop, hm.span, Cursor.ahead_offset, Text.size_append]
        omega
      obtain ⟨hlast, hreach'⟩ := hm.last
      simp only [Pattern.matchesAfter, Pattern.findNext?, hfind, hstop, if_false]
      refine .cons ⟨spot, hreach, hm⟩ (Along.of_reaches (hreach.trans hreach') (ih ?_ ?_))
      · simpa using hfuel
      · rw [hlast]
        exact hrest

theorem length_le_of_sweeps {t : Text} {l : List (Text × Text)} (h : F.Sweeps t l) : l.length ≤ t.length := by
  unfold Form.Sweeps at h
  generalize ([] : Text) = u at h
  induction h with
  | done t => simp
  | skip _ _ ih => exact Nat.le_succ_of_le ih
  | @take x y u l hx _ ih =>
    have hpos := List.length_pos_iff.2 (Form.ne_nil hx)
    have hle := Form.length_past_le y
    simp only [List.length_cons, List.length_append]
    omega

theorem allMatches_along (hreads : g.Reads F) {t : Text} {l : List (Text × Text)} (h : F.Sweeps t l) :
    Along g (.start t) (g.pattern.allMatches t) l := by
  rcases hreads.find?_of_sweeps (.start t) h with
    ⟨rfl, hfind⟩ | ⟨x, y, l', spot, m, rfl, hreach, hfind, hm, hx, hrest⟩
  · simp only [Pattern.allMatches, hfind]
    exact .nil
  · obtain ⟨hlast, hreach'⟩ := hm.last
    have hlen := length_le_of_sweeps h
    simp only [Pattern.allMatches, hfind]
    refine .cons ⟨spot, hreach, hm⟩ (Along.of_reaches (hreach.trans hreach') ?_)
    exact hreads.matchesAfter_along (by simp only [List.length_cons] at hlen; omega) (by rw [hlast]; exact hrest)

/-- **The signatures in a text are those that the sweep takes**, each with the
text behind it, and documented when a docstring opens there. -/
theorem signed_eq (hreads : g.Reads F) {t : Text} {l : List (Text × Text)} (h : F.Sweeps t l) :
    (g.signed t).map (fun a => (a.2.text, a.2.last.rest)) = l ∧
      ∀ a ∈ g.signed t, a.2.first.rest = a.2.text ++ a.2.last.rest ∧
        (a.1.group? g.documentedGroup).isSome = opened a.2.last.rest := by
  have halong : ∀ {ms : List Match} {l : List (Text × Text)}, Along g (.start t) ms l →
      let signed := ms.filterMap fun m => (g.signature? t m).map (m, ·)
      signed.map (fun a => (a.2.text, a.2.last.rest)) = l ∧
        ∀ a ∈ signed, a.2.first.rest = a.2.text ++ a.2.last.rest ∧
          (a.1.group? g.documentedGroup).isSome = opened a.2.last.rest := by
    intro ms l hms
    induction hms with
    | nil => simp
    | @cons m p ms l hm _ ih =>
      obtain ⟨x, y⟩ := p
      obtain ⟨spot, -, hm⟩ := hm
      have hrest : (spot.ahead x).rest = y := Cursor.ahead_rest hm.rest
      have htext : Span.text ⟨spot, spot.ahead x⟩ = x := by
        simp [Span.text, Cursor.textTo, hrest, hm.rest]
      simp only [List.filterMap_cons, hm.signature t, Option.map_some, List.map_cons, htext, hrest, ih.1,
        true_and]
      intro a ha
      rcases List.mem_cons.1 ha with rfl | ha
      · exact ⟨by rw [htext, hrest]; exact hm.rest, by rw [hrest]; exact hm.documented⟩
      · exact ih.2 a ha
  exact halong (hreads.allMatches_along h)

theorem orderedIn (hreads : g.Reads F) (t : Text) : g.OrderedIn t := by
  intro m hm indicator hindicator ending hending
  obtain ⟨l, hl⟩ := F.exists_sweeps t
  obtain ⟨hmap, hall⟩ := hreads.signed_eq hl
  have hsignature : g.signature? t m = some ⟨indicator.first, ending.last⟩ := by
    unfold Grammar.signature?
    split
    · next hk => exact absurd hk hreads.kind
    · rw [hindicator, hending]
      rfl
  have hsigned := Grammar.mem_signed.2 ⟨hm, hsignature⟩
  obtain ⟨hrest, -⟩ := hall _ hsigned
  obtain ⟨hsig, -⟩ := Form.Passes.mem hl (hmap ▸ List.mem_map.2 ⟨_, hsigned, rfl⟩)
  obtain ⟨hfirst, hlast⟩ := Grammar.signed_places hsigned
  have hpos := Text.size_pos_of_ne_nil (Form.ne_nil hsig)
  have h1 := hfirst.size_rest
  have h2 := hlast.size_rest
  have hsize := congrArg Text.size hrest
  rw [Text.size_append] at hsize
  dsimp only [Span.start, Span.stop] at *
  omega

/-! ## Lines and owners -/

/-- The line that a text of `t` ends on when `y` follows, and where one starts
that `x` and `y` follow. -/
def anchoredPair (t : Text) (p : Text × Text) : Nat × Nat :=
  (1 + (t.feeds - Text.feeds p.2), t.size - Text.size (p.1 ++ p.2))

theorem anchoredPair_of_signed {t : Text} {a : Match × Span} (ha : a ∈ g.signed t)
    (hrest : a.2.first.rest = a.2.text ++ a.2.last.rest) :
    anchoredPair t (a.2.text, a.2.last.rest) = (t.lineOf a.2.stop, a.2.start) := by
  obtain ⟨head, upto, ⟨hhead, hstart⟩, hupto, hstop⟩ := Grammar.signed_cuts ha
  have hsize := congrArg Text.size hhead
  rw [Text.size_append] at hsize
  have hfeeds := congrArg Text.feeds hupto
  rw [Text.feeds_append] at hfeeds
  simp only [anchoredPair, Prod.mk.injEq, ← hrest]
  constructor
  · conv => rhs; rw [hupto, hstop, Text.lineOf_append]
    omega
  · omega

theorem ownerIn_eq (hreads : g.Reads F) {t : Text} {l : List (Text × Text)} (h : F.Sweeps t l) (line : Nat) :
    g.ownerIn t line = (((l.map (anchoredPair t)).filter fun a => a.1 == line).getLast?).map (·.2) := by
  obtain ⟨hl, hall⟩ := hreads.signed_eq h
  have hanchored : g.anchored (LineTable.ofText t) (g.signatures t) = l.map (anchoredPair t) := by
    rw [Grammar.anchored, Grammar.signatures_eq_map_signed, ← hl, List.map_map, List.map_map]
    refine List.map_congr_left fun a ha => ?_
    simp only [Function.comp_apply, anchoredPair_of_signed ha (hall a ha).1, Grammar.anchorLine_eq, Grammar.anchorOf, hreads.below,
      Bool.false_eq_true, if_false]
  rw [Grammar.ownerIn, Grammar.owner?, hanchored, if_neg (by simp [hreads.below])]

theorem feeds_le_of_sweeps {t : Text} {l : List (Text × Text)} (h : F.Sweeps t l) {p : Text × Text}
    (hp : p ∈ l) :
    F.Sig p.1 ∧ Text.feeds p.2 ≤ t.feeds ∧ Text.size (p.1 ++ p.2) ≤ t.size := by
  obtain ⟨hx, a, ha⟩ := Form.Passes.mem h hp
  have hfeeds := congrArg Text.feeds ha
  have hsize := congrArg Text.size ha
  rw [Text.feeds_append, Text.feeds_append] at hfeeds
  rw [Text.size_append] at hsize
  exact ⟨hx, by omega, by omega⟩

/-- A signature owns its line when those behind it end on later lines. -/
theorem owner_iff (hreads : g.Reads F) {t x y : Text} {l₁ l₂ : List (Text × Text)}
    (h : F.Sweeps t (l₁ ++ (x, y) :: l₂)) :
    g.ownerIn t (anchoredPair t (x, y)).1 = some (anchoredPair t (x, y)).2 ↔
      ∀ q ∈ l₂, Text.feeds q.2 < Text.feeds y := by
  obtain ⟨-, hx, hrest⟩ := h.split l₁
  obtain ⟨-, hfeeds, hsize⟩ := feeds_le_of_sweeps h (p := (x, y)) (by simp)
  have hpos := Text.size_pos_of_ne_nil (Form.ne_nil hx)
  have hpast := congrArg Text.size (gap_append_past y)
  have hpast' := congrArg Text.feeds (gap_append_past y)
  rw [Text.size_append] at hsize hpast
  rw [Text.feeds_append] at hpast'
  dsimp only at hfeeds hsize
  rw [hreads.ownerIn_eq h, List.map_append, List.map_cons, List.filter_append,
    List.filter_cons_of_pos (by simp)]
  constructor
  · intro howner q hq
    refine Nat.lt_of_not_le fun hge => ?_
    obtain ⟨-, hqfeeds, -⟩ := feeds_le_of_sweeps hrest hq
    have hsame : q.2.feeds = y.feeds := by omega
    -- The owner would be one of those behind, and starts later.
    have hne : ((l₂.map (anchoredPair t)).filter fun a => a.1 == (anchoredPair t (x, y)).1) ≠ [] := by
      rw [Ne, List.filter_eq_nil_iff]
      intro hall
      refine hall (anchoredPair t q) (List.mem_map.2 ⟨q, hq, rfl⟩) ?_
      simp [anchoredPair, hsame]
    obtain ⟨last, hlast⟩ := Option.isSome_iff_exists.1 (List.getLast?_isSome.2 hne)
    rw [List.getLast?_append_of_ne_nil _ (by simp), List.getLast?_cons, hlast, Option.getD_some] at howner
    simp only [Option.map_some, Option.some.injEq] at howner
    obtain ⟨hmem, -⟩ := List.mem_filter.1 (List.mem_of_getLast? hlast)
    obtain ⟨q', hq', rfl⟩ := List.mem_map.1 hmem
    obtain ⟨-, -, hsize'⟩ := feeds_le_of_sweeps hrest hq'
    simp only [anchoredPair, Text.size_append] at howner hsize'
    omega
  · intro hlater
    have hnil : ((l₂.map (anchoredPair t)).filter fun a => a.1 == (anchoredPair t (x, y)).1) = [] := by
      rw [List.filter_eq_nil_iff]
      intro a ha
      obtain ⟨q, hq, rfl⟩ := List.mem_map.1 ha
      have hlt := hlater q hq
      simp only [anchoredPair, beq_iff_eq]
      omega
    rw [hnil]
    simp

/-! ## Candidates -/

theorem judged_iff_open (hreads : g.Reads F) {t : Text} {l : List (Text × Text)} (h : F.Sweeps t l)
    {s₁ s₂ : List (Match × Span)} {a : Match × Span} (hsigned : g.signed t = s₁ ++ a :: s₂) :
    ((a.1.group? g.documentedGroup).isSome = false ∧ g.ownerIn t (t.lineOf (g.anchorOf a.2)) = some a.2.start) ↔
      opened a.2.last.rest = false ∧ ∀ b ∈ s₂, Text.feeds b.2.last.rest < Text.feeds a.2.last.rest := by
  obtain ⟨hl, hall⟩ := hreads.signed_eq h
  have ha : a ∈ g.signed t := by rw [hsigned]; simp
  obtain ⟨hrest, hdoc⟩ := hall a ha
  have hpair := anchoredPair_of_signed ha hrest
  rw [hsigned, List.map_append, List.map_cons] at hl
  rw [← hl] at h
  have howner := hreads.owner_iff h
  rw [hpair] at howner
  simp only [Grammar.anchorOf, hreads.below, Bool.false_eq_true, if_false, hdoc, howner, List.forall_mem_map]

theorem stands_of_signed (hreads : g.Reads F) {t : Text} {l : List (Text × Text)} (h : F.Sweeps t l)
    {m : Match} {s : Span} (hs : (m, s) ∈ g.signed t) (file : Path) :
    ∃ a, (g.candidateOf file t (t.lineOf s.start) m s).Stands t a s.text s.last.rest := by
  obtain ⟨hrest, -⟩ := (hreads.signed_eq h).2 _ hs
  obtain ⟨a, upto, ⟨ha, hstart⟩, hupto, hstop⟩ := Grammar.signed_cuts hs
  dsimp only at hrest
  rw [hrest] at ha
  have hsplit : upto = a ++ s.text := List.append_cancel_right (by rw [← hupto, ha, List.append_assoc])
  refine ⟨a, ha, rfl, hstart, hstop.trans (by rw [hsplit]), ?_⟩
  simp [Grammar.candidateOf, Shape.placement, hreads.below]

/-- A candidate of a scan is the candidate of an open signature. -/
theorem found_open (hreads : g.Reads F) {t : Text} {l : List (Text × Text)} (h : F.Sweeps t l) {file : Path}
    {history : LineHistory} {c : Candidate}
    (hc : c ∈ (g.findings file t none history).filterMap Finding.candidate?) :
    ∃ a x y, c.Stands t a x y ∧ Open l x y := by
  obtain ⟨m, s, hs, hdoc, howner, -, -, rfl⟩ := mem_found.1 hc
  obtain ⟨hl, -⟩ := hreads.signed_eq h
  obtain ⟨s₁, s₂, hsigned⟩ := List.append_of_mem hs
  obtain ⟨hclosed, hlast⟩ := (hreads.judged_iff_open h hsigned).1 ⟨hdoc, howner⟩
  obtain ⟨a, hstands⟩ := hreads.stands_of_signed h hs file
  refine ⟨a, s.text, s.last.rest, hstands, s₁.map fun a => (a.2.text, a.2.last.rest),
    s₂.map fun a => (a.2.text, a.2.last.rest), ?_, hclosed, ?_⟩
  · rw [← hl, hsigned, List.map_append, List.map_cons]
  · intro q hq
    obtain ⟨b, hb, rfl⟩ := List.mem_map.1 hq
    exact hlast b hb

/-- An open signature is a candidate of the scan, unless names are ignored. -/
theorem open_found (hreads : g.Reads F) (hignore : g.shape.ignore = []) {t x y : Text}
    {l : List (Text × Text)} (h : F.Sweeps t l) (hopen : Open l x y) (file : Path) (history : LineHistory) :
    ∃ c ∈ (g.findings file t none history).filterMap Finding.candidate?, ∃ a, c.Stands t a x y := by
  obtain ⟨l₁, l₂, rfl, hclosed, hlast⟩ := hopen
  obtain ⟨hl, -⟩ := hreads.signed_eq h
  obtain ⟨s₁, s₂, hsigned, rfl, hl₂⟩ := List.map_eq_append_iff.1 hl
  obtain ⟨a, s₃, rfl, heq, rfl⟩ := List.map_eq_cons_iff.1 hl₂
  cases heq
  have ha : a ∈ g.signed t := by rw [hsigned]; simp
  obtain ⟨hdoc, howner⟩ := (hreads.judged_iff_open h hsigned).2
    ⟨hclosed, fun b hb => hlast _ (List.mem_map.2 ⟨b, hb, rfl⟩)⟩
  exact ⟨_, mem_found.2 ⟨a.1, a.2, ha, hdoc, howner, by simp [hignore], rfl, rfl⟩,
    hreads.stands_of_signed h ha file⟩

end Grammar.Reads
end DocScribe
