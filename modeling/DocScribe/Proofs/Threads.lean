/-
Documenting one kind of construct with placeholders, as texts put in behind
the open signatures of a sweep.

`KindPlan.filled` is the text that comes of it, `KindPlan.puts` what is put in
where. Simultaneous insertion is threading (`KindPlan.filled_eq`), and when no
two constructs have the same name every open signature receives its docstring
(`KindPlan.Documents.ownCuts`).
-/
import DocScribe.Proofs.Docstrings
import DocScribe.Proofs.PythonMatches

namespace DocScribe

theorem weave_eq_thread (put : Nat → Text) {n o : Nat} {u : Text} (h : o + u.size = n) :
    Text.weave put o u = thread (fun v => put (n - Text.size v)) u := by
  induction u generalizing o with
  | nil =>
    obtain rfl : o = n := by simpa using h
    rfl
  | cons c u ih =>
    have hhere : n - (c.utf8Size + Text.size u) = o := by
      rw [Text.size_cons] at h
      omega
    rw [Text.weave, thread, ih (by rw [← h, Text.size_cons]; omega), Text.size_cons, hhere]

/-! ## Where a block goes -/

/-- The block of a signature goes behind the line that the signature ends
on. -/
theorem offset?_of_firstLine {b : Block} {t B R : Text} (head : Text) (hp : b.placement = .after)
    (ht : t = head ++ (B ++ R))
    (hstop : b.stop = head.size) (hline : FirstLine B R) : b.offset? t = some (t.size - R.size) := by
  subst ht
  rcases hline with ⟨s, rfl, hs⟩ | ⟨hB, rfl⟩
  · have hshape : head ++ (s ++ ['\n'] ++ R) = head ++ (s ++ '\n' :: R) := by simp
    rw [hshape, Block.offset?, Block.point?_after hp hstop hs]
    simp only [Option.map_some, Point.position, Text.size_append, Text.size_cons, Text.size_nil,
      Option.some.injEq]
    omega
  · rw [List.append_nil, Block.offset?, Block.point?_fresh hp hstop hB]
    rfl

theorem suffix_eq_of_size {t r R r' R' : Text} (h : t = r ++ R) (h' : t = r' ++ R')
    (hsize : R.size = R'.size) :
    R = R' := by
  have hlen := congrArg Text.size (h.symm.trans h')
  rw [Text.size_append, Text.size_append] at hlen
  exact (Text.eq_of_append_size (h.symm.trans h') (by omega)).2

theorem size_sub_suffix {t r R R' : Text} (h : t = r ++ R) (r' : Text) (h' : t = r' ++ R')
    (heq : t.size - R.size = t.size - R'.size) : R = R' := by
  refine suffix_eq_of_size h h' ?_
  have h1 := congrArg Text.size h
  have h2 := congrArg Text.size h'
  rw [Text.size_append] at h1 h2
  omega

theorem Candidate.Stands.offset? {c : Candidate} {t a x y : Text} (h : c.Stands t a x y) {b : Block}
    (hb : b.Fits c) {B R : Text} (hy : y = B ++ R) (hline : FirstLine B R) :
    b.offset? t = some (t.size - R.size) :=
  offset?_of_firstLine (a ++ x) (hb.placement.trans h.placement) (by rw [h.split, hy, List.append_assoc])
    (hb.stop.trans h.stop) hline

/-- The open signature of a block that goes to a place. -/
theorem Grammar.Reads.open_of_fits {g : Grammar} {F : Form} (hreads : g.Reads F) {t : Text}
    {l : List (Text × Text)} (h : F.Sweeps t l) {file : Path} {history : LineHistory} {c : Candidate}
    (hc : c ∈ (g.findings file t none history).filterMap Finding.candidate?) {b : Block} (hb : b.Fits c)
    {r R : Text} (ht : t = r ++ R) (ho : b.offset? t = some (t.size - R.size)) :
    ∃ a x y B, c.Stands t a x y ∧ Open l x y ∧ y = B ++ R ∧ FirstLine B R := by
  obtain ⟨a, x, y, hstands, hopen⟩ := hreads.found_open h hc
  obtain ⟨B, R', hy, hline⟩ := exists_firstLine y
  have ho' := hstands.offset? hb hy hline
  rw [ho, Option.some.injEq] at ho'
  obtain rfl : R = R' := size_sub_suffix ht (a ++ (x ++ B)) (by rw [hstands.split, hy]; simp) ho'
  exact ⟨a, x, y, B, hstands, hopen, hy, hline⟩

/-! ## Candidates and names -/

/-- The names of the constructs that a grammar matches in a text. -/
def Grammar.matchedNames (g : Grammar) (file : Path) (t : Text) : List Text :=
  (g.signed t).map fun a => g.nameOf file a.1

section names
variable {g : Grammar} {file : Path} {t : Text}

theorem found_names_sublist (change : Option FileChange) (history : LineHistory) :
    (((g.findings file t change history).filterMap Finding.candidate?).map (·.name)).Sublist
      (g.matchedNames file t) := by
  rw [Grammar.findings_eq, Grammar.matchedNames]
  induction g.signed t with
  | nil => exact .slnil
  | cons a l ih =>
    rw [List.map_cons, List.map_cons, List.filterMap_cons]
    split
    · exact ih.cons _
    · next c hc =>
      obtain ⟨-, -, -, -, rfl⟩ := Grammar.judge_candidate?.1 hc
      exact ih.cons_cons _

/-- With names that are all different, every candidate that is found stays. -/
theorem candidates_eq_found (hnames : (g.matchedNames file t).Nodup) (history : LineHistory) :
    (scanWith g file t none history).1.candidates =
      (g.findings file t none history).filterMap Finding.candidate? := by
  have hfound := (found_names_sublist none history).nodup hnames
  have hall := Session.candidates_insertAll (Session.Sound.empty file g.shape.kind)
    (show ((Session.empty file g.shape.kind).names ++ _).Nodup from hfound)
  simpa [scanWith, Session.empty] using hall

end names

/-! ## Documenting one kind -/

namespace KindPlan

/-- The blocks of the candidates of a text. -/
def blocks (k : KindPlan) (file : Path) (t : Text) : List Block :=
  (scan k.grammar file t none).1.candidates.map (placeholderBlock k.style)

/-- The text after its constructs were documented. -/
def filled (k : KindPlan) (file : Path) (t : Text) : Text := (applyBlocks? t (k.blocks file t)).getD t

/-- What is put in front of a part that ends the text. -/
def puts (k : KindPlan) (file : Path) (t u : Text) : Text :=
  putAt t (byStart (k.blocks file t)) (t.size - u.size)

variable {k : KindPlan} {file : Path} {t : Text}

theorem blocksFor (k : KindPlan) (file : Path) (t : Text) (history : LineHistory) :
    BlocksFor (scanWith k.grammar file t none history).1.candidates (k.blocks file t) := by
  refine ⟨fun c => some (placeholderBlock k.style c), ?_, ?_⟩
  · rintro c - b hb
    cases hb
    exact ⟨rfl, rfl, rfl⟩
  · rw [List.filterMap_eq_map']
    exact .refl _

theorem applyBlocks?_blocks (ho : k.grammar.OrderedIn t) :
    applyBlocks? t (k.blocks file t) = some (k.filled file t) := by
  have happly := (stacked_of_scan ho (k.blocksFor file t {})).applyBlocks?_eq
  rw [filled, happly]
  rfl

theorem filled_eq (ho : k.grammar.OrderedIn t) : k.filled file t = thread (k.puts file t) t := by
  have happly := (stacked_of_scan ho (k.blocksFor file t {})).applyBlocks?_eq
  rw [filled, happly, Option.getD_some, weave_eq_thread _ (Nat.zero_add _)]
  rfl

/-- A plan for constructs of a form, whose blocks are docstrings. -/
structure Documents (k : KindPlan) (F : Form) : Prop where
  reads : k.grammar.Reads F
  ignore : k.grammar.shape.ignore = []
  docstring : ∀ (t : Text) (c : Candidate), c.Plain →
    Docstring (Block.withEnding t.lineEnding (placeholderBlock k.style c).text)

theorem mem_blocks {b : Block} (h : b ∈ byStart (k.blocks file t)) :
    ∃ c ∈ (k.grammar.findings file t none {}).filterMap Finding.candidate?, b = placeholderBlock k.style c := by
  obtain ⟨c, hc, rfl⟩ := List.mem_map.1 ((sorted_perm _ _).mem_iff.1 h)
  exact ⟨c, found_of_mem_candidates hc, rfl⟩

theorem plain_of_found {history : LineHistory} {c : Candidate}
    (hc : c ∈ (k.grammar.findings file t none history).filterMap Finding.candidate?) : c.Plain := by
  obtain ⟨m, s, -, -, -, -, -, rfl⟩ := mem_found.1 hc
  exact plain_candidateOf _ _ _ _ _ _

end KindPlan

/-! ## Docstrings put in -/

/-- Only a line ending may stand in front of a block. -/
theorem blank_fresh (t : Text) (b : Block) :
    Blank (if b.placement = .after ∧ '\n' ∉ (t.after? b.stop).getD [] then t.lineEnding else []) := by
  split
  · rcases Text.lineEnding_cases t with heq | heq <;> rw [heq] <;> simp [Blank, isBlank]
  · exact .nil

theorem Docstring.blank_append {a s : Text} (ha : Blank a) (h : Docstring s) : Docstring (a ++ s) := by
  obtain ⟨⟨b, rest, hb, hs⟩, hcalm, init, hend⟩ := h
  refine ⟨⟨a ++ b, rest, DocScribe.blank_append.2 ⟨ha, hb⟩, ?_⟩, calm_blank_append ha hcalm, a ++ init, ?_⟩
  · rw [hs, List.append_assoc]
  · rw [hend, List.append_assoc]

theorem Docstring.append {s s' : Text} (h : Docstring s) (h' : s' = [] ∨ Docstring s') :
    Docstring (s ++ s') := by
  rcases h' with rfl | h'
  · rwa [List.append_nil]
  obtain ⟨⟨b, rest, hb, hs⟩, hcalm, init, hend⟩ := h
  obtain ⟨-, hcalm', init', hend'⟩ := h'
  refine ⟨⟨b, rest ++ s', hb, by rw [hs]; simp⟩, ?_, s ++ init', by rw [hend']; simp⟩
  rw [hend] at hcalm ⊢
  rw [List.append_assoc]
  exact calm_append (by decide) hcalm hcalm'

theorem Docstring.ne_nil {s : Text} (h : Docstring s) : s ≠ [] := by
  obtain ⟨init, rfl⟩ := h.ended
  simp

theorem docstring_flatMap {α : Type} {f : α → Text} {l : List α} (h : ∀ a ∈ l, Docstring (f a)) :
    l.flatMap f = [] ∨ Docstring (l.flatMap f) := by
  induction l with
  | nil => exact .inl rfl
  | cons a l ih =>
    rw [List.flatMap_cons]
    exact .inr ((h a List.mem_cons_self).append (ih fun b hb => h b (List.mem_cons_of_mem a hb)))

/-- No signature of a form starts inside a docstring. -/
def Form.QuietInCalm (F : Form) : Prop :=
  ∀ s a b rest, calm (s ++ ['\n']) = true → s ++ ['\n'] = a ++ b → b ≠ [] → F.Quiet (b ++ rest)

theorem Docstrings.of_docstring {F : Form} (hF : F.QuietInCalm) {ins : Text → Text}
    (h : ∀ u, ins u = [] ∨ Docstring (ins u)) : Docstrings F ins where
  opens u hu := (h u).elim (fun hnil => absurd hnil hu) fun hdoc => hdoc.opens
  quiet u a b rest hab hb := by
    rcases h u with hnil | ⟨-, hcalm, init, hend⟩
    · rw [hnil] at hab
      exact absurd (List.append_eq_nil_iff.1 hab.symm).2 hb
    · rw [hend] at hcalm hab
      exact hF init a b rest hcalm hab hb

namespace KindPlan.Documents

variable {k : KindPlan} {F : Form} {file : Path} {t : Text}

theorem docstring_added (hk : k.Documents F) {b : Block} (hb : b ∈ byStart (k.blocks file t)) :
    Docstring (b.added t) := by
  obtain ⟨c, hc, rfl⟩ := mem_blocks hb
  exact Docstring.blank_append (blank_fresh t _) (hk.docstring t c (plain_of_found hc))

theorem docstring_puts (hk : k.Documents F) (u : Text) : k.puts file t u = [] ∨ Docstring (k.puts file t u) :=
  docstring_flatMap fun _ hb => hk.docstring_added (List.mem_filter.1 hb).1

/-- The block of an open signature, and where it goes. -/
theorem block_of_open (hk : k.Documents F) (hnames : (k.grammar.matchedNames file t).Nodup)
    {l : List (Text × Text)}
    (h : F.Sweeps t l) {x y B R : Text} (hopen : Open l x y) (hy : y = B ++ R) (hline : FirstLine B R) :
    ∃ b ∈ byStart (k.blocks file t), b.offset? t = some (t.size - R.size) := by
  obtain ⟨c, hc, a, hstands⟩ := hk.reads.open_found hk.ignore h hopen file {}
  have hmem : placeholderBlock k.style c ∈ k.blocks file t := by
    refine List.mem_map.2 ⟨c, ?_, rfl⟩
    rw [scan, candidates_eq_found hnames {}]
    exact hc
  exact ⟨_, (sorted_perm _ _).mem_iff.2 hmem, hstands.offset? ⟨rfl, rfl, rfl⟩ hy hline⟩

/-- The open signature of a block that goes to a place. -/
theorem open_of_block (hk : k.Documents F) {l : List (Text × Text)} (h : F.Sweeps t l) {b : Block}
    (hb : b ∈ byStart (k.blocks file t)) {r R : Text} (ht : t = r ++ R)
    (ho : b.offset? t = some (t.size - R.size)) :
    ∃ x y B, Open l x y ∧ y = B ++ R ∧ FirstLine B R ∧ b.placement = .after ∧ t.after? b.stop = some y := by
  obtain ⟨c, hc, rfl⟩ := mem_blocks hb
  obtain ⟨a, x, y, B, hstands, hopen, hy, hline⟩ := hk.reads.open_of_fits h hc ⟨rfl, rfl, rfl⟩ ht ho
  exact ⟨x, y, B, hopen, hy, hline, hstands.placement, hstands.after?⟩

/-- When no line feed follows one signature, none follows any signature that
nothing but its own line follows. -/
theorem no_feed_of_fresh {l : List (Text × Text)} (h : F.Sweeps t l) {x y x' B : Text}
    (hmem : (x', B ++ []) ∈ l)
    (hline : FirstLine B []) (hmem' : (x, y) ∈ l) (hy : '\n' ∉ y) : '\n' ∉ B := by
  rcases hline with ⟨s, rfl, -⟩ | ⟨hB, -⟩
  · obtain ⟨-, a', ha'⟩ := Form.Passes.mem h hmem
    obtain ⟨hx, a, ha⟩ := Form.Passes.mem h hmem'
    have hends : Text.EndsLine (x ++ y) :=
      .of_append (a := a) (.inr ⟨a' ++ (x' ++ s), by rw [← ha, ha']; simp⟩)
    rcases hends with hnil | ⟨above, habove⟩
    · exact absurd (List.append_eq_nil_iff.1 hnil).1 (Form.ne_nil hx)
    · exact absurd habove (not_ends_feed hx hy above)
  · exact hB

/-- **Docstrings go behind the open signatures, and nowhere else.** -/
theorem ownCuts (hk : k.Documents F) (hnames : (k.grammar.matchedNames file t).Nodup) {l : List (Text × Text)}
    (h : F.Sweeps t l) : OwnCuts (k.puts file t) t l where
  cut r R ht hins := by
    have hne : ((byStart (k.blocks file t)).filter fun b => b.offset? t = some (t.size - R.size)) ≠ [] :=
      fun hnil => hins (by rw [puts, putAt, hnil]; rfl)
    obtain ⟨b, hb⟩ := List.exists_mem_of_ne_nil _ hne
    obtain ⟨hb, ho⟩ := List.mem_filter.1 hb
    obtain ⟨x, y, B, hopen, hy, hline, -⟩ := hk.open_of_block h hb ht (of_decide_eq_true ho)
    exact ⟨x, y, B, hopen, hy, hline⟩
  filled x y B R hopen hy hline := by
    obtain ⟨b, hb, ho⟩ := hk.block_of_open hnames h hopen hy hline
    rw [puts, putAt, Ne, List.flatMap_eq_nil_iff]
    intro hnil
    exact (hk.docstring_added hb).ne_nil (hnil b (List.mem_filter.2 ⟨hb, decide_eq_true ho⟩))
  ended x y hopen hy := by
    obtain ⟨b, hb, ho⟩ := hk.block_of_open hnames h hopen (List.append_nil y).symm (.inr ⟨hy, rfl⟩)
    have hmem : b ∈ (byStart (k.blocks file t)).filter fun b => b.offset? t = some (t.size - Text.size []) :=
      List.mem_filter.2 ⟨hb, decide_eq_true ho⟩
    obtain ⟨b₀, bs, hbs⟩ := List.exists_cons_of_ne_nil (List.ne_nil_of_mem hmem)
    obtain ⟨hb₀, ho₀⟩ := List.mem_filter.1 (by rw [hbs]; exact List.mem_cons_self : b₀ ∈ List.filter _ _)
    obtain ⟨x₀, y₀, B, hopen₀, rfl, hline, hplace, hafter⟩ :=
      hk.open_of_block h hb₀ (List.append_nil t).symm (of_decide_eq_true ho₀)
    have hfresh : '\n' ∉ B := no_feed_of_fresh h hopen₀.mem hline hopen.mem hy
    have hfirst : b₀.added t = t.lineEnding ++ Block.withEnding t.lineEnding b₀.text := by
      rw [Block.added, if_pos ⟨hplace, by simpa [hafter] using hfresh⟩]
    rw [puts, putAt, hbs, List.flatMap_cons, hfirst]
    rcases Text.lineEnding_cases t with heq | heq
    · rw [heq]
      exact .inr ⟨_, .inl rfl⟩
    · rw [heq]
      exact .inr ⟨_, .inr rfl⟩

end KindPlan.Documents
end DocScribe
