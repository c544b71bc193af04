/-
When a second sweep finds nothing to document.

Of the signatures that a sweep takes, those are open that no docstring follows
and behind which no other ends on the same line (`Open`). Each open signature
receives a docstring at the end of the line it ends on (`OwnCuts`). If nothing
but blanks stands behind it there (`CleanTail`), the docstring is found again,
and with all open signatures like that nothing is open afterwards
(`OwnCuts.settled`). But the first signature with more than blanks behind it is
open again (`OwnCuts.reopened`).
-/
import DocScribe.Proofs.SweepThread

namespace DocScribe

variable {F : Form} {ins : Text → Text}

/-- The rest of the line that a text starts with. -/
def lineRest (y : Text) : Text := y.takeWhile (· != '\n')

/-- Only blanks stand on the line that a text starts with. -/
def CleanTail (y : Text) : Prop := Blank (lineRest y)

instance (y : Text) : Decidable (CleanTail y) := inferInstanceAs (Decidable (Blank (lineRest y)))

theorem lineRest_append (y : Text) :
    ∃ Y, y = lineRest y ++ Y ∧ '\n' ∉ lineRest y ∧ (Y = [] ∨ ∃ rest, Y = '\n' :: rest) := by
  rcases Text.exists_firstLine y with hnone | ⟨line, tail, rfl, hline⟩
  · exact ⟨[], by simp [lineRest, Text.takeWhile_ne_feed hnone], by
      rw [lineRest, Text.takeWhile_ne_feed hnone]; exact hnone, .inl rfl⟩
  · exact ⟨'\n' :: tail, by rw [lineRest, Text.takeWhile_ne_feed_append hline], by
      rw [lineRest, Text.takeWhile_ne_feed_append hline]; exact hline, .inr ⟨tail, rfl⟩⟩

theorem exists_firstLine (y : Text) : ∃ r R, y = r ++ R ∧ FirstLine r R := by
  obtain ⟨Y, hy, hline, rfl | ⟨rest, rfl⟩⟩ := lineRest_append y
  · exact ⟨lineRest y, [], hy, .inr ⟨hline, rfl⟩⟩
  · exact ⟨lineRest y ++ ['\n'], rest, by rw [List.append_assoc]; exact hy, .inl ⟨_, rfl, hline⟩⟩

theorem FirstLine.blank_iff {y r R : Text} (h : FirstLine r R) (hy : y = r ++ R) : Blank r ↔ CleanTail y := by
  subst hy
  unfold CleanTail lineRest
  rcases h with ⟨s, rfl, hs⟩ | ⟨hs, rfl⟩
  · rw [List.append_assoc, List.singleton_append, Text.takeWhile_ne_feed_append hs, blank_append]
    exact and_iff_left (by simp [Blank, isBlank])
  · rw [List.append_nil, Text.takeWhile_ne_feed hs]

/-! ## Open signatures -/

/-- A signature of a sweep that is to be documented: no docstring follows it,
and those behind it end on later lines. -/
def Open (l : List (Text × Text)) (x y : Text) : Prop :=
  ∃ l₁ l₂, l = l₁ ++ (x, y) :: l₂ ∧ opened y = false ∧ ∀ q ∈ l₂, Text.feeds q.2 < Text.feeds y

theorem Open.mem {l : List (Text × Text)} {x y : Text} (h : Open l x y) : (x, y) ∈ l := by
  obtain ⟨l₁, l₂, rfl, -⟩ := h
  simp

theorem Open.not_opened {l : List (Text × Text)} {x y : Text} (h : Open l x y) : opened y = false := by
  obtain ⟨l₁, l₂, -, h, -⟩ := h
  exact h

/-- Texts are put in at the ends of the lines of the open signatures, and
nowhere else. -/
structure OwnCuts (ins : Text → Text) (t : Text) (l : List (Text × Text)) : Prop where
  cut : ∀ r R, t = r ++ R → ins R ≠ [] → ∃ x y B, Open l x y ∧ y = B ++ R ∧ FirstLine B R
  filled : ∀ x y B R, Open l x y → y = B ++ R → FirstLine B R → ins R ≠ []
  ended : ∀ x y, Open l x y → '\n' ∉ y → LineEnd (ins [])

theorem Form.Passes.mem {t u x y : Text} {l : List (Text × Text)} (h : F.Passes t l u) (hmem : (x, y) ∈ l) :
    F.Sig x ∧ ∃ a, t = a ++ (x ++ y) := by
  obtain ⟨l₁, l₂, rfl⟩ := List.append_of_mem hmem
  obtain ⟨h1, h2, -⟩ := h.split l₁
  exact ⟨h2, h1.suffix⟩

theorem Form.Sweeps.of_quiet {c : Char} {t : Text} {l : List (Text × Text)} (h : F.Sweeps (c :: t) l)
    (hquiet : F.Quiet (c :: t)) : F.Sweeps t l := by
  unfold Form.Sweeps at h ⊢
  generalize hu : c :: t = u at h
  cases h with
  | done => cases hu
  | skip _ hrest =>
    cases hu
    exact hrest
  | take hx _ => exact absurd hx (hquiet _ _ hu)

namespace OwnCuts

variable {t : Text} {l : List (Text × Text)}

/-- What a sweep keeps when texts are put in behind its own signatures `P`:
every place lies behind one that is still to come, and those that will be
taken have only blanks behind them. -/
def Keeps (F : Form) (ins : Text → Text) (P : Text → Text → Prop) (u : Text)
    (todo rest : List (Text × Text)) : Prop :=
  F.Sweeps u (todo ++ rest) ∧
    (∀ r R, u = r ++ R → r ≠ [] → ins R ≠ [] → ∃ x y B, (x, y) ∈ todo ++ rest ∧ P x y ∧ y = B ++ R ∧
      FirstLine B R ∧ opened y = false) ∧
    ∀ x y, (x, y) ∈ todo → P x y → CleanTail y

theorem length_le_gap {y r R : Text} (hy : y = r ++ R) (hr : Blank r) : r.length ≤ (gap y).length := by
  have hle : ∀ {r : Text}, Blank r → r.length ≤ ((r ++ R).takeWhile isBlank).length := by
    intro r hr
    induction r with
    | nil => simp
    | cons c r ih =>
      rw [List.cons_append, List.takeWhile_cons_of_pos (hr c List.mem_cons_self)]
      have := ih fun d hd => hr d (List.mem_cons_of_mem c hd)
      simpa using this
  have := hle hr
  rw [← hy] at this
  rw [gap, List.length_append]
  omega

theorem keeps_safe (F : Form) (ins : Text → Text) (P : Text → Text → Prop) : Safe F ins (Keeps F ins P) where
  firm u todo rest h := by
    intro r R hu hne hins w hw hsig
    obtain ⟨x, y, B, hmem, -, rfl, -, -⟩ := h.2.1 r R hu hne hins
    obtain ⟨hx, a, ha⟩ := Form.Passes.mem h.1 hmem
    -- A signature that goes beyond the place would end behind a later one.
    have hr : r = a ++ (x ++ B) := by
      rw [hu, ← List.append_assoc, ← List.append_assoc, List.append_assoc a] at ha
      exact List.append_cancel_right ha
    have hlen := F.first_end (r ++ w) [] a x (B ++ w) hsig hx (by rw [hr]; simp)
    have hpos := List.length_pos_iff.2 hw
    rw [hr] at hlen
    simp only [List.length_append] at hlen
    omega
  skip c t todo rest hquiet h := by
    refine ⟨h.1.of_quiet hquiet, fun r R ht hne hins => ?_, h.2.2⟩
    exact h.2.1 (c :: r) R (by rw [ht]; rfl) (by simp) hins
  take x y todo rest hx h := by
    obtain ⟨hsweep, hcut, hclean⟩ := h
    obtain ⟨-, -, hpast⟩ := Form.Passes.split [] hsweep
    have hne := Form.ne_nil hx
    have hsize := congrArg List.length (gap_append_past y)
    rw [List.length_append] at hsize
    refine ⟨fun r R hy hle hins => ?_, hpast, fun r R hr hne' hins => ?_,
      fun x' y' hmem => hclean x' y' (by simp [hmem])⟩
    · obtain ⟨x', y', B, hmem, -, hy', hline, hclosed⟩ :=
        hcut (x ++ r) R (by rw [hy, List.append_assoc]) (by simp [hne]) hins
      rcases List.mem_cons.1 hmem with heq | hmem
      · cases heq
        have hB : B = r := List.append_cancel_right (hy'.symm.trans hy)
        subst hB
        exact ⟨hline, hclosed⟩
      · obtain ⟨hx', a, ha⟩ := Form.Passes.mem hpast hmem
        have hlen := congrArg List.length ha
        have hpos := List.length_pos_iff.2 (Form.ne_nil hx')
        have hlen' := congrArg List.length hy
        rw [hy'] at hlen
        simp only [List.length_append] at hlen hlen'
        omega
    · obtain ⟨x', y', B, hmem, hP, hy', hline, hclosed⟩ :=
        hcut (x ++ (gap y ++ r)) R (by rw [List.append_assoc, List.append_assoc, ← hr, gap_append_past])
          (by simp [hne]) hins
      rcases List.mem_cons.1 hmem with heq | hmem
      · cases heq
        have hB : B.length ≤ (gap y).length :=
          length_le_gap hy' ((hline.blank_iff hy').2 (hclean x y List.mem_cons_self hP))
        have hpos := List.length_pos_iff.2 hne'
        have hlen := congrArg List.length hy'
        have hlen' := congrArg List.length hr
        simp only [List.length_append] at hlen hlen'
        omega
      · exact ⟨x', y', B, hmem, hP, hy', hline, hclosed⟩

end OwnCuts

/-! ## What is open after texts were put in -/

/-- The sweep of the threaded text, signature by signature. -/
def threaded (ins : Text → Text) (l : List (Text × Text)) : List (Text × Text) :=
  l.map fun p => (p.1, thread ins p.2)

theorem not_ends_feed {x m : Text} (hx : F.Sig x) (hm : '\n' ∉ m) (s : Text) : x ++ m ≠ s ++ ['\n'] := by
  intro hs
  rcases List.eq_nil_or_concat m with rfl | ⟨m, c, rfl⟩
  · obtain ⟨head, rfl⟩ := F.stop x hx
    rw [List.append_nil] at hs
    obtain ⟨-, hlast⟩ := List.append_inj' hs rfl
    cases hlast
  · rw [List.concat_eq_append, ← List.append_assoc] at hs
    obtain ⟨-, hlast⟩ := List.append_inj' hs rfl
    cases hlast
    simp at hm

/-- Behind a signature nothing is put in before its line is over. -/
theorem ins_eq_nil_of_line {x m z : Text} (hx : F.Sig x) (hlines : LineCuts ins (x ++ (m ++ z)))
    (hm : '\n' ∉ m) (hz : z ≠ []) : ins z = [] := by
  by_cases hins : ins z = []
  · exact hins
  rcases hlines (x ++ m) z (by simp) (by simp [Form.ne_nil hx]) hins with ⟨s, hs⟩ | ⟨hnil, -⟩
  · exact absurd hs (not_ends_feed hx hm s)
  · exact absurd hnil hz

theorem thread_line {x m z : Text} (hx : F.Sig x) (hlines : LineCuts ins (x ++ (m ++ z))) (hm : '\n' ∉ m) :
    thread ins (m ++ z) = m ++ thread ins z := by
  refine thread_append fun r R hr hR => ?_
  subst hr
  rw [List.append_assoc] at hlines
  exact ins_eq_nil_of_line hx hlines (fun hr => hm (by simp [hr])) (by simp [hR])

/-- What is open after texts were put in was open before and received
nothing. -/
theorem open_of_threaded {t x y' : Text} {l : List (Text × Text)} (hdoc : Docstrings F ins)
    (hlines : LineCuts ins t) (h : F.Sweeps t l) (hgaps : ∀ p ∈ l, Gapped ins p.2)
    (hopen : Open (threaded ins l) x y') :
    ∃ y, Open l x y ∧ ∀ r R, y = r ++ R → r.length ≤ (gap y).length → ins R = [] := by
  obtain ⟨l₁', l₂', hl, hclosed, hlast⟩ := hopen
  obtain ⟨l₁, l₂, rfl, -, hl₂⟩ := List.map_eq_append_iff.1 hl
  obtain ⟨⟨x, y⟩, l₃, rfl, heq, rfl⟩ := List.map_eq_cons_iff.1 hl₂
  cases heq
  obtain ⟨hfront, hx, hrest⟩ := h.split l₁
  obtain ⟨a, ha⟩ := hfront.suffix
  have hhere : LineCuts ins (x ++ y) := LineCuts.suffix (a := a) (by rw [← ha]; exact hlines)
  have hpast : LineCuts ins (past y) := by
    rw [← gap_append_past y] at hhere
    exact hhere.suffix.suffix
  obtain ⟨hiff, -⟩ := past_thread hdoc (hgaps (x, y) (by simp)) hpast
  rw [hclosed] at hiff
  simp only [Bool.false_eq_true, false_iff, not_or, Bool.not_eq_true] at hiff
  refine ⟨y, ⟨l₁, l₃, rfl, hiff.1, fun q hq => ?_⟩, fun r R hy hle => ?_⟩
  · refine Nat.lt_of_not_le fun hge => ?_
    obtain ⟨-, b, hb⟩ := Form.Passes.mem hrest hq
    have hy : y = (gap y ++ (b ++ q.1)) ++ q.2 := by
      conv => lhs; rw [← gap_append_past y, hb]
      simp
    have hfeeds := congrArg Text.feeds hy
    rw [Text.feeds_append] at hfeeds
    have hline : '\n' ∉ gap y ++ (b ++ q.1) := Text.feeds_eq_zero.1 (by omega)
    have hthread := thread_line hx (by rw [← hy]; exact hhere) hline
    rw [← hy] at hthread
    have hlt := hlast (q.1, thread ins q.2) (List.mem_map.2 ⟨q, hq, rfl⟩)
    rw [hthread, Text.feeds_append, Text.feeds_eq_zero.2 hline] at hlt
    simp at hlt
  · by_cases hins : ins R = []
    · exact hins
    · exact absurd ⟨r, R, hy, hle, hins⟩ hiff.2

namespace OwnCuts

variable {t : Text} {l : List (Text × Text)}

theorem ins_eq_nil (h : F.Sweeps t l) (hown : OwnCuts ins t l) : ins t = [] := by
  by_cases hins : ins t = []
  · exact hins
  obtain ⟨x, y, B, hopen, hy, -⟩ := hown.cut [] t rfl hins
  obtain ⟨hx, a, ha⟩ := Form.Passes.mem h hopen.mem
  have hpos := List.length_pos_iff.2 (Form.ne_nil hx)
  have hlen := congrArg List.length ha
  have hlen' := congrArg List.length hy
  simp only [List.length_append] at hlen hlen'
  omega

theorem keeps (h : F.Sweeps t l) (hown : OwnCuts ins t l) {todo rest : List (Text × Text)}
    (hl : l = todo ++ rest)
    (hclean : ∀ x y, (x, y) ∈ todo → Open l x y → CleanTail y) : Keeps F ins (Open l) t todo rest := by
  refine ⟨hl ▸ h, fun r R ht _ hins => ?_, hclean⟩
  obtain ⟨x, y, B, hopen, hy, hline⟩ := hown.cut r R ht hins
  exact ⟨x, y, B, hl ▸ hopen.mem, hopen, hy, hline, hopen.not_opened⟩

theorem lineCuts (h : F.Sweeps t l) (hown : OwnCuts ins t l) : LineCuts ins t := by
  intro r R ht _ hins
  obtain ⟨x, y, B, hopen, rfl, hline⟩ := hown.cut r R ht hins
  obtain ⟨-, a, ha⟩ := Form.Passes.mem h hopen.mem
  rw [ht, ← List.append_assoc, ← List.append_assoc, List.append_assoc a] at ha
  have hr := List.append_cancel_right ha
  rcases hline with ⟨s, rfl, -⟩ | ⟨hnone, rfl⟩
  · exact .inl ⟨a ++ (x ++ s), by rw [hr]; simp⟩
  · exact .inr ⟨rfl, hown.ended x _ hopen (by simpa using hnone)⟩

/-- **Docstrings behind signatures with clean tails are all found again.** -/
theorem settled (hdoc : Docstrings F ins) (h : F.Sweeps t l) (hown : OwnCuts ins t l)
    (hclean : ∀ x y, Open l x y → CleanTail y) :
    F.Sweeps (thread ins t) (threaded ins l) ∧ ∀ x y, ¬Open (threaded ins l) x y := by
  have hlines := hown.lineCuts h
  obtain ⟨⟨-, hgaps⟩, hpasses⟩ := Form.Passes.thread hdoc (keeps_safe F ins (Open l)) [] h hlines
    (hown.keeps h (List.append_nil l).symm fun x y _ => hclean x y)
  refine ⟨?_, fun x y' hopen => ?_⟩
  · rw [thread_eq, hown.ins_eq_nil h, List.nil_append]
    exact hpasses
  · obtain ⟨y, hopen, hnone⟩ := open_of_threaded hdoc hlines h hgaps hopen
    obtain ⟨B, R, hy, hline⟩ := exists_firstLine y
    have hblank := (hline.blank_iff hy).2 (hclean x y hopen)
    exact hown.filled x y B R hopen hy hline (hnone B R hy (length_le_gap hy hblank))

end OwnCuts
/-! ## Signatures that stay open -/

/-- Behind a signature there is more than blanks on its line, no docstring
among it and no other signature. -/
def Stuck (F : Form) (y : Text) : Prop :=
  ∃ L Y, y = L ++ Y ∧ '\n' ∉ L ∧ ¬Blank L ∧ LineEnd Y ∧ opened y = false ∧ ∀ a x b, L = a ++ (x ++ b) → ¬F.Sig x

theorem length_gap_le_of_sig {y a x b : Text} (hclosed : opened y = false) (hx : F.Sig x)
    (hy : y = a ++ (x ++ b)) : (gap y).length ≤ a.length := by
  refine Nat.le_of_not_lt fun hlt => ?_
  obtain ⟨s, hs, hrest⟩ := append_of_length_le (hy.symm.trans (gap_append_past y).symm) (Nat.le_of_lt hlt)
  obtain ⟨c, x', rfl, hc⟩ := F.start x hx
  cases s with
  | nil =>
    rw [hs, List.append_nil] at hlt
    omega
  | cons d s =>
    rw [List.cons_append, List.cons_append, List.cons.injEq] at hrest
    have hblank : Blank (gap y) := by
      rw [gap_of_not_opened hclosed]
      exact blank_takeWhile y
    rw [hs] at hblank
    rw [hblank c (by rw [hrest.1]; simp)] at hc
    cases hc

/-- An open signature with more than blanks behind it. -/
theorem stuck_of_open {t x y : Text} {l : List (Text × Text)} (h : F.Sweeps t l) (hopen : Open l x y)
    (hbad : ¬CleanTail y) : Stuck F y := by
  obtain ⟨l₁, l₂, rfl, hclosed, hlast⟩ := hopen
  obtain ⟨-, -, hrest⟩ := h.split l₁
  obtain ⟨Y, hy, hline, hY⟩ := lineRest_append y
  have hend : LineEnd Y := by
    rcases hY with rfl | ⟨rest, rfl⟩
    · exact .inl rfl
    · exact .inr ⟨rest, .inl rfl⟩
  refine ⟨lineRest y, Y, hy, hline, hbad, hend, hclosed, fun a x₂ b hL hx₂ => ?_⟩
  have hy₂ : y = a ++ (x₂ ++ (b ++ Y)) := by
    conv => lhs; rw [hy, hL]
    simp
  obtain ⟨a', ha', hpast⟩ :=
    append_of_length_le ((gap_append_past y).trans hy₂) (length_gap_le_of_sig hclosed hx₂ hy₂)
  obtain ⟨x₁, y₁, l₃, a₁, rfl, hpast₁, hle⟩ := Form.Passes.next hrest hx₂ hpast
  -- The sweep would have taken a signature that ends on the same line.
  have hfront : (gap y ++ (a₁ ++ x₁)) ++ y₁ = lineRest y ++ Y := by
    have hsplit := gap_append_past y
    rw [hpast₁] at hsplit
    rw [← hy]
    simpa using hsplit
  obtain ⟨s, hs, rfl⟩ := append_of_length_le hfront (by
    rw [hL, ha']
    simp only [List.length_append]
    omega)
  have hlt := hlast (x₁, s ++ Y) List.mem_cons_self
  have hfeeds := congrArg Text.feeds hy
  have hzero := Text.feeds_eq_zero.2 hline
  rw [Text.feeds_append, hzero] at hfeeds
  rw [hfeeds, Text.feeds_append] at hlt
  omega

/-- Behind it the sweep takes no signature that ends on its line. -/
theorem Stuck.last {y : Text} {l : List (Text × Text)} (hs : Stuck F y) (h : F.Sweeps (past y) l) :
    ∀ q ∈ l, Text.feeds q.2 < Text.feeds y := by
  obtain ⟨L, Y, hy, hline, -, hend, -, hnone⟩ := hs
  intro q hq
  refine Nat.lt_of_not_le fun hge => ?_
  obtain ⟨hx, b, hb⟩ := Form.Passes.mem h hq
  have hM : L ++ Y = (gap y ++ (b ++ q.1)) ++ q.2 := by
    rw [← hy]
    conv => lhs; rw [← gap_append_past y, hb]
    simp
  have hfeeds := congrArg Text.feeds hM
  rw [← hy, Text.feeds_append] at hfeeds
  have hnofeed : '\n' ∉ gap y ++ (b ++ q.1) := Text.feeds_eq_zero.1 (by omega)
  by_cases hle : (gap y ++ (b ++ q.1)).length ≤ L.length
  · obtain ⟨s, hs, -⟩ := append_of_length_le hM.symm hle
    exact hnone (gap y ++ b) q.1 s (by rw [hs]; simp) hx
  · obtain ⟨m, hm, hY⟩ := append_of_length_le hM (by omega)
    rw [hm] at hnofeed hle
    cases m with
    | nil => simp at hle
    | cons c m =>
      rw [List.cons_append] at hY
      rcases hend with hnil | ⟨rest, hfeed | hreturn⟩
      · rw [hnil] at hY
        cases hY
      · rw [hfeed, List.cons.injEq] at hY
        exact hnofeed (by rw [← hY.1]; simp)
      · rw [hreturn, List.cons.injEq] at hY
        obtain ⟨head, hhead⟩ := F.stop q.1 hx
        cases m with
        | nil =>
          rw [hhead, ← List.append_assoc, ← List.append_assoc, ← hY.1] at hm
          obtain ⟨-, hlast⟩ := List.append_inj' hm rfl
          cases hlast
        | cons d m =>
          rw [List.cons_append, List.cons.injEq] at hY
          exact hnofeed (by rw [← hY.2.1]; simp)

theorem startsWith_of_lineEnd {K Y : Text} (hY : LineEnd Y) (h : Text.startsWith (K ++ Y) quotes = true) :
    ∃ rest, K = quotes ++ rest := by
  obtain ⟨rest, hrest⟩ := Text.startsWith_iff.1 h
  by_cases hle : quotes.length ≤ K.length
  · obtain ⟨s, hs, -⟩ := append_of_length_le hrest.symm hle
    exact ⟨s, hs⟩
  · obtain ⟨m, hm, hY'⟩ := append_of_length_le hrest (by omega)
    cases m with
    | nil =>
      rw [hm] at hle
      simp at hle
    | cons c m =>
      rw [hY', List.cons_append] at hY
      have hblank := hY.blank
      have hquote : c = '"' := by
        have hmem : c ∈ quotes := by rw [hm]; simp
        simpa [quotes] using hmem
      rw [hquote] at hblank
      cases hblank

/-- Putting texts in at the ends of lines changes nothing about it. -/
theorem Stuck.thread {x y : Text} (hx : F.Sig x) (hlines : LineCuts ins (x ++ y)) (hs : Stuck F y) :
    Stuck F (DocScribe.thread ins y) := by
  obtain ⟨L, Y, rfl, hline, hblank, hend, hclosed, hnone⟩ := hs
  have hthread := thread_line hx hlines hline
  have hend' : LineEnd (DocScribe.thread ins Y) := by
    rcases hend with rfl | ⟨rest, rfl | rfl⟩
    · by_cases hins : ins [] = []
      · exact .inl hins
      · rcases hlines (x ++ L) [] (by simp) (by simp [Form.ne_nil hx]) hins with ⟨s, hs⟩ | ⟨-, hend⟩
        · exact absurd hs (not_ends_feed hx hline s)
        · exact hend
    · exact .inr ⟨_, .inl (by rw [thread_eq, ins_eq_nil_of_line hx hlines hline (by simp)]; rfl)⟩
    · have hnext : ins ('\n' :: rest) = [] :=
        ins_eq_nil_of_line (m := L ++ ['\r']) hx (by simpa using hlines) (by simp [hline]) (by simp)
      refine .inr ⟨DocScribe.thread ins rest, .inr ?_⟩
      rw [thread_eq, ins_eq_nil_of_line hx hlines hline (by simp), threadTail, thread_eq, hnext]
      rfl
  refine ⟨L, _, hthread, hline, hblank, hend', ?_, hnone⟩
  have hsome : (L.dropWhile isBlank).isEmpty = false := by
    rw [Bool.eq_false_iff]
    intro hnil
    refine hblank fun c hc => ?_
    rw [← List.takeWhile_append_dropWhile (p := isBlank) (l := L), List.isEmpty_iff.1 hnil,
      List.append_nil] at hc
    exact blank_takeWhile L c hc
  rw [opened, List.dropWhile_append, hsome] at hclosed
  rw [hthread, opened, List.dropWhile_append, hsome, Bool.eq_false_iff]
  intro hopened
  obtain ⟨rest, hrest⟩ := startsWith_of_lineEnd hend' hopened
  have : Text.startsWith (L.dropWhile isBlank ++ Y) quotes = true :=
    Text.startsWith_iff.2 ⟨rest ++ Y, by rw [hrest, List.append_assoc]⟩
  rw [if_neg (by simp), this] at hclosed
  cases hclosed

theorem Stuck.isOpen {t x y : Text} {l₁ : List (Text × Text)} (hs : Stuck F y) (h : F.Passes t l₁ (x ++ y))
    (hx : F.Sig x) : ∃ l, F.Sweeps t l ∧ Open l x y := by
  obtain ⟨l₂, hl₂⟩ := F.exists_sweeps (past y)
  obtain ⟨-, -, -, -, -, -, hclosed, -⟩ := id hs
  exact ⟨l₁ ++ (x, y) :: l₂, h.append (.take hx hl₂), l₁, l₂, rfl, hclosed, hs.last hl₂⟩

/-- It is found again in the threaded text. -/
theorem Stuck.threaded {I : Text → List (Text × Text) → List (Text × Text) → Prop} {t x y : Text}
    {l₁ : List (Text × Text)} (hdoc : Docstrings F ins) (hsafe : Safe F ins I) (rest : List (Text × Text))
    (hlines : LineCuts ins t)
    (h : F.Passes t l₁ (x ++ y)) (hI : I t l₁ rest) (hx : F.Sig x) (hs : Stuck F y) :
    F.Passes (threadTail ins t) (DocScribe.threaded ins l₁) (x ++ DocScribe.thread ins y) ∧
      Stuck F (DocScribe.thread ins y) := by
  obtain ⟨⟨hI', -⟩, hpasses⟩ := h.thread hdoc hsafe rest hlines hI
  rw [(hsafe.firm _ _ _ hI').threadTail_sig hx] at hpasses
  obtain ⟨a, rfl⟩ := h.suffix
  exact ⟨hpasses, hs.thread hx hlines.suffix⟩

theorem exists_first {α : Type} {Q : α → Prop} {l : List α} (h : ∃ p ∈ l, Q p) :
    ∃ l₁ p l₂, l = l₁ ++ p :: l₂ ∧ Q p ∧ ∀ q ∈ l₁, ¬Q q := by
  induction l with
  | nil => obtain ⟨p, hp, -⟩ := h; cases hp
  | cons a l ih =>
    by_cases ha : Q a
    · exact ⟨[], a, l, rfl, ha, by simp⟩
    · obtain ⟨p, hp, hQ⟩ := h
      have hp' : p ∈ l := by
        rcases List.mem_cons.1 hp with rfl | hp'
        · exact absurd hQ ha
        · exact hp'
      obtain ⟨l₁, p, l₂, rfl, hQ, hfirst⟩ := ih ⟨p, hp', hQ⟩
      refine ⟨a :: l₁, p, l₂, rfl, hQ, fun q hq => ?_⟩
      rcases List.mem_cons.1 hq with rfl | hq
      · exact ha
      · exact hfirst q hq

/-- **The first open signature with more than blanks behind it stays open.** -/
theorem OwnCuts.reopened {t : Text} {l : List (Text × Text)} (hdoc : Docstrings F ins) (h : F.Sweeps t l)
    (hown : OwnCuts ins t l) (hbad : ∃ x y, Open l x y ∧ ¬CleanTail y) :
    ∃ l₁ x y, F.Passes (DocScribe.thread ins t) l₁ (x ++ y) ∧ F.Sig x ∧ Stuck F y := by
  obtain ⟨x₀, y₀, hopen₀, hbad₀⟩ := hbad
  obtain ⟨l₁, ⟨x, y⟩, l₂, hl, ⟨hopen, hbad⟩, hfirst⟩ :=
    exists_first (Q := fun p : Text × Text => Open l p.1 p.2 ∧ ¬CleanTail p.2) ⟨(x₀, y₀), hopen₀.mem, hopen₀, hbad₀⟩
  have hkeeps : Keeps F ins (Open l) t l₁ ((x, y) :: l₂) := hown.keeps h hl fun x' y' hmem hopen' =>
    Classical.byContradiction fun hbad' => hfirst (x', y') hmem ⟨hopen', hbad'⟩
  have hpass := h
  rw [hl] at hpass
  obtain ⟨hpass, hx, -⟩ := Form.Passes.split l₁ hpass
  obtain ⟨hpasses, hstuck⟩ :=
    Stuck.threaded hdoc (keeps_safe F ins (Open l)) ((x, y) :: l₂) (hown.lineCuts h) hpass hkeeps hx
    (stuck_of_open h hopen hbad)
  rw [thread_eq, hown.ins_eq_nil h, List.nil_append]
  exact ⟨_, x, _, hpasses, hx, hstuck⟩

end DocScribe
