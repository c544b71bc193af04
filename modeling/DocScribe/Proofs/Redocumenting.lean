/-
Python texts that were documented, documented once more.

Headers, classes and methods are documented in this order, so the docstrings of
methods go into a text in which those of classes stand. They keep what a sweep
for classes finds, as long as only blanks follow the methods on their lines
(`Python.methods_safe`). `Python.nothing_left_iff` puts the kinds together:
after one round nothing is left to document exactly when only blanks followed
each construct that was documented.
-/
import DocScribe.Proofs.Threads

namespace DocScribe

namespace Session

theorem candidates_insert_ne_nil {s : Session} (h : s.Sound) (c : Candidate) :
    (s.insert c).candidates ≠ [] := by
  unfold Session.insert
  split
  · next i hi =>
    rw [h.index] at hi
    have hname := (lookup_zipIdx_some hi).2
    intro hnil
    have hlen := congrArg List.length hnil
    rw [List.length_set] at hlen
    have hempty : s.candidates = [] := List.eq_nil_of_length_eq_zero hlen
    simp [names, hempty] at hname
  · simp

theorem candidates_insertAll_eq_nil {s : Session} (h : s.Sound) {cs : List Candidate}
    (hnil : (cs.foldl insert s).candidates = []) : cs = [] := by
  rcases List.eq_nil_or_concat cs with rfl | ⟨init, c, rfl⟩
  · rfl
  · rw [List.concat_eq_append, List.foldl_append] at hnil
    exact absurd hnil (candidates_insert_ne_nil (h.insertAll init) c)

end Session

/-- Nothing but blanks stands behind a candidate on the line that its signature
ends on. -/
def Candidate.Alone (t : Text) (c : Candidate) : Prop := CleanTail ((t.after? c.stop).getD [])

/-- Nothing but blanks stands behind the constructs of a text that are to be
documented. -/
def KindPlan.Clean (k : KindPlan) (file : Path) (t : Text) : Prop :=
  ∀ c ∈ (scan k.grammar file t none).1.candidates, c.Alone t

instance (t : Text) (c : Candidate) : Decidable (c.Alone t) :=
  inferInstanceAs (Decidable (CleanTail ((t.after? c.stop).getD [])))

instance (k : KindPlan) (file : Path) (t : Text) : Decidable (k.Clean file t) :=
  inferInstanceAs (Decidable (∀ c ∈ (scan k.grammar file t none).1.candidates, c.Alone t))

namespace KindPlan.Documents

variable {k : KindPlan} {F : Form} {file : Path} {t : Text} {l : List (Text × Text)}

theorem clean_iff (hk : k.Documents F) (hnames : (k.grammar.matchedNames file t).Nodup) (h : F.Sweeps t l) :
    k.Clean file t ↔ ∀ x y, Open l x y → CleanTail y := by
  rw [Clean, scan, candidates_eq_found hnames {}]
  constructor
  · intro hclean x y hopen
    obtain ⟨c, hc, a, hstands⟩ := hk.reads.open_found hk.ignore h hopen file {}
    have halone := hclean c hc
    rwa [Candidate.Alone, hstands.after?, Option.getD_some] at halone
  · intro hclean c hc
    obtain ⟨a, x, y, hstands, hopen⟩ := hk.reads.found_open h hc
    rw [Candidate.Alone, hstands.after?, Option.getD_some]
    exact hclean x y hopen

/-- Nothing is to be documented when no signature is open. -/
theorem candidates_eq_nil_iff (hk : k.Documents F) (h : F.Sweeps t l) :
    (scan k.grammar file t none).1.candidates = [] ↔ ∀ x y, ¬Open l x y := by
  constructor
  · intro hnil x y hopen
    obtain ⟨c, hc, -⟩ := hk.reads.open_found hk.ignore h hopen file {}
    rw [Session.candidates_insertAll_eq_nil (.empty file k.grammar.shape.kind) hnil] at hc
    cases hc
  · intro hnone
    refine List.eq_nil_iff_forall_not_mem.2 fun c hc => ?_
    obtain ⟨a, x, y, -, hopen⟩ := hk.reads.found_open h (found_of_mem_candidates hc)
    exact hnone x y hopen

theorem docstrings (hk : k.Documents F) (hF : F.QuietInCalm) : Docstrings F (k.puts file t) :=
  .of_docstring hF hk.docstring_puts

theorem settled (hk : k.Documents F) (hF : F.QuietInCalm) (hnames : (k.grammar.matchedNames file t).Nodup)
    (hclean : k.Clean file t) : ∃ l, F.Sweeps (k.filled file t) l ∧ ∀ x y, ¬Open l x y := by
  obtain ⟨l, hl⟩ := F.exists_sweeps t
  rw [filled_eq (hk.reads.orderedIn t)]
  exact ⟨_, OwnCuts.settled (hk.docstrings hF) hl (hk.ownCuts hnames hl) ((hk.clean_iff hnames hl).1 hclean)⟩

theorem reopened (hk : k.Documents F) (hF : F.QuietInCalm) (hnames : (k.grammar.matchedNames file t).Nodup)
    (hbad : ¬k.Clean file t) :
    ∃ l x y, F.Passes (k.filled file t) l (x ++ y) ∧ F.Sig x ∧ Stuck F y := by
  obtain ⟨l, hl⟩ := F.exists_sweeps t
  rw [hk.clean_iff hnames hl] at hbad
  simp only [Classical.not_forall] at hbad
  obtain ⟨x, y, hopen, hbad⟩ := hbad
  rw [filled_eq (hk.reads.orderedIn t)]
  exact OwnCuts.reopened (hk.docstrings hF) hl (hk.ownCuts hnames hl) ⟨x, y, hopen, hbad⟩

/-- **Constructs of one kind are all documented after one round exactly when
only blanks followed them.** -/
theorem candidates_filled_iff (hk : k.Documents F) (hF : F.QuietInCalm)
    (hnames : (k.grammar.matchedNames file t).Nodup) :
    (scan k.grammar file (k.filled file t) none).1.candidates = [] ↔ k.Clean file t := by
  constructor
  · intro hnil
    refine Classical.byContradiction fun hbad => ?_
    obtain ⟨l, x, y, hpass, hx, hstuck⟩ := hk.reopened hF hnames hbad
    obtain ⟨l', hl', hopen⟩ := hstuck.isOpen hpass hx
    exact (hk.candidates_eq_nil_iff hl').1 hnil x y hopen
  · intro hclean
    obtain ⟨l, hl, hnone⟩ := hk.settled hF hnames hclean
    exact (hk.candidates_eq_nil_iff hl).2 hnone

end KindPlan.Documents

namespace Python

theorem class_documents : classPlan.Documents classForm :=
  ⟨class_reads, rfl, fun t _ hc => docstring_block .classDef hc t⟩

theorem method_documents : methodPlan.Documents methodForm :=
  ⟨method_reads, rfl, fun t _ hc => docstring_block .method hc t⟩

theorem class_quietInCalm : classForm.QuietInCalm := fun _ _ _ rest => class_quiet_of_calm rest

theorem method_quietInCalm : methodForm.QuietInCalm := fun _ _ _ rest => method_quiet_of_calm rest

/-! ## Docstrings of methods, and classes -/

/-- Texts are put in behind the lines of methods that only blanks and no
docstring follow. -/
def MethodCuts (ins : Text → Text) (t : Text) : Prop :=
  ∀ r R, t = r ++ R → ins R ≠ [] →
    ∃ a x B, r = a ++ (x ++ B) ∧ MethodSig x ∧ Blank B ∧ FirstLine B R ∧ opened (B ++ R) = false

theorem gapped_of_methodCuts {ins : Text → Text} {t pre x y : Text} (hcuts : MethodCuts ins t)
    (hx : ClassSig x) (ht : t = pre ++ (x ++ y)) : Gapped ins y := by
  intro r R hy hle hins
  obtain ⟨a, x', B, hr, hx', hB, hline, hclosed⟩ := hcuts (pre ++ (x ++ r)) R (by rw [ht, hy]; simp) hins
  obtain ⟨head, rfl⟩ := hx.stop
  obtain ⟨head', rfl⟩ := hx'.stop
  -- What the cut leaves of the gap is blank: quotes do not end a method.
  have hblank : Blank r := by
    obtain ⟨s, hs, -⟩ := append_of_length_le (hy.symm.trans (gap_append_past y).symm) hle
    rcases List.append_eq_append_iff.1 hs with ⟨m, rfl, hm⟩ | ⟨m, hm, -⟩
    · rcases List.eq_nil_or_concat m with rfl | ⟨m, z, rfl⟩
      · rw [List.append_nil]
        exact blank_takeWhile y
      · have hz : z = '"' := by
          have hmem : z ∈ if opened y then quotes else [] := by rw [hm]; simp
          split at hmem
          · simpa [quotes] using hmem
          · cases hmem
        subst hz
        have hquote : (pre ++ (head ++ ':' :: (y.takeWhile isBlank ++ m))) ++ '"' :: [] =
            (a ++ head') ++ ':' :: B := by
          simpa using hr
        obtain ⟨-, hchar, -⟩ := append_blank_unique (by decide) (by decide) .nil hB hquote
        cases hchar
    · exact (blank_append.1 (hm ▸ blank_takeWhile y)).1
  have hends : (pre ++ head) ++ ':' :: r = (a ++ head') ++ ':' :: B := by simpa using hr
  obtain ⟨-, -, rfl⟩ := append_blank_unique (by decide) (by decide) hblank hB hends
  exact ⟨hline, by rw [hy]; exact hclosed⟩

theorem methods_safe {ins : Text → Text} {t : Text} (hcuts : MethodCuts ins t) :
    Safe classForm ins fun u _ _ => ∃ pre, t = pre ++ u where
  firm u _ _ := by
    rintro ⟨pre, ht⟩ r R rfl hne hins w hw
    obtain ⟨a, x, B, hr, hx, hB, -⟩ := hcuts (pre ++ r) R (by rw [ht]; simp) hins
    exact not_classSig_of_method hx hB hr hne hw
  skip c u _ _ := by
    rintro - ⟨pre, ht⟩
    exact ⟨pre ++ [c], by rw [ht]; simp⟩
  take x y _ _ hx := by
    rintro ⟨pre, ht⟩
    refine ⟨gapped_of_methodCuts hcuts hx ht, pre ++ (x ++ gap y), ?_⟩
    rw [ht, List.append_assoc, List.append_assoc, gap_append_past]

section methods
variable {file : Path} {t : Text} {m : List (Text × Text)}

theorem methodCuts_of_clean (hnames : (methodGrammar.matchedNames file t).Nodup) (h : methodForm.Sweeps t m)
    (hclean : ∀ x y, Open m x y → CleanTail y) : MethodCuts (methodPlan.puts file t) t := by
  intro r R ht hins
  obtain ⟨x, y, B, hopen, rfl, hline⟩ := (method_documents.ownCuts hnames h).cut r R ht hins
  obtain ⟨hx, a, ha⟩ := Form.Passes.mem h hopen.mem
  refine ⟨a, x, B, ?_, hx, (hline.blank_iff rfl).2 (hclean x _ hopen), hline, hopen.not_opened⟩
  rw [ht, ← List.append_assoc x, ← List.append_assoc a] at ha
  exact List.append_cancel_right ha

/-- Documenting methods that only blanks follow leaves the classes as they
are. -/
theorem class_settled (hnames : (methodGrammar.matchedNames file t).Nodup) (h : methodForm.Sweeps t m)
    (hclean : ∀ x y, Open m x y → CleanTail y) {l : List (Text × Text)} (hl : classForm.Sweeps t l)
    (hnone : ∀ x y, ¬Open l x y) :
    ∃ l', classForm.Sweeps (methodPlan.filled file t) l' ∧ ∀ x y, ¬Open l' x y := by
  have hown := method_documents.ownCuts hnames h
  have hcuts := methodCuts_of_clean hnames h hclean
  have hdoc : Docstrings classForm (methodPlan.puts file t) :=
    .of_docstring class_quietInCalm method_documents.docstring_puts
  have hlines := hown.lineCuts h
  obtain ⟨⟨-, hgaps⟩, hpasses⟩ := Form.Passes.thread hdoc (methods_safe hcuts) [] hl hlines ⟨[], rfl⟩
  refine ⟨threaded (methodPlan.puts file t) l, ?_, fun x y hopen => ?_⟩
  · rw [KindPlan.filled_eq (method_reads.orderedIn t), thread_eq, hown.ins_eq_nil h, List.nil_append]
    exact hpasses
  · obtain ⟨y', hopen', -⟩ := open_of_threaded hdoc hlines hl hgaps hopen
    exact hnone x y' hopen'

/-- So does a class that stays open. -/
theorem class_stuck (hnames : (methodGrammar.matchedNames file t).Nodup) (h : methodForm.Sweeps t m)
    (hclean : ∀ x y, Open m x y → CleanTail y) {l : List (Text × Text)} {x y : Text}
    (hl : classForm.Passes t l (x ++ y)) (hx : ClassSig x) (hs : Stuck classForm y) :
    ∃ l' x' y', classForm.Sweeps (methodPlan.filled file t) l' ∧ Open l' x' y' := by
  have hown := method_documents.ownCuts hnames h
  have hcuts := methodCuts_of_clean hnames h hclean
  have hdoc : Docstrings classForm (methodPlan.puts file t) :=
    .of_docstring class_quietInCalm method_documents.docstring_puts
  obtain ⟨hpasses, hstuck⟩ := Stuck.threaded hdoc (methods_safe hcuts) [] (hown.lineCuts h) hl ⟨[], rfl⟩ hx hs
  obtain ⟨l', hl', hopen⟩ := hstuck.isOpen hpasses hx
  refine ⟨l', x, _, ?_, hopen⟩
  rw [KindPlan.filled_eq (method_reads.orderedIn t), thread_eq, hown.ins_eq_nil h, List.nil_append]
  exact hl'

end methods

/-! ## Headers -/

/-- A docstring that opens a text still opens it when texts are put in behind
colons. -/
theorem opened_thread {ins : Text → Text} {t : Text} (hopened : opened t = true)
    (hcuts : ∀ r R, t = r ++ R → ins R ≠ [] → ':' ∈ r) : opened (thread ins t) = true := by
  obtain ⟨b, rest, hb, rfl⟩ := opened_iff.1 hopened
  rw [← List.append_assoc, thread_append, List.append_assoc]
  · exact opened_iff.2 ⟨b, _, hb, rfl⟩
  · intro r R hr hR
    by_cases hins : ins (R ++ rest) = []
    · exact hins
    · have hmem := hcuts r (R ++ rest) (by rw [← List.append_assoc, hr, List.append_assoc]) hins
      have hall : ':' ∈ b ++ quotes := by rw [hr]; simp [hmem]
      rcases List.mem_append.1 hall with hmem | hmem
      · exact absurd hmem (not_mem_blank (by decide) hb)
      · exact absurd hmem (by decide)

theorem opened_filled {k : KindPlan} {F : Form} (hk : k.Documents F) {file : Path} {t : Text}
    (hnames : (k.grammar.matchedNames file t).Nodup) (hopened : opened t = true) :
    opened (k.filled file t) = true := by
  obtain ⟨l, hl⟩ := F.exists_sweeps t
  rw [KindPlan.filled_eq (hk.reads.orderedIn t)]
  refine opened_thread hopened fun r R ht hins => ?_
  obtain ⟨x, y, B, hopen, rfl, -⟩ := (hk.ownCuts hnames hl).cut r R ht hins
  obtain ⟨hx, a, ha⟩ := Form.Passes.mem hl hopen.mem
  rw [ht, ← List.append_assoc x, ← List.append_assoc a] at ha
  rw [List.append_cancel_right ha]
  obtain ⟨head, rfl⟩ := F.stop x hx
  simp

theorem header_candidates (file : Path) (t : Text) :
    ∃ m, (scan headerGrammar file t none).1.candidates =
      if opened t then [] else [headerGrammar.candidateOf file t 1 m ⟨.start t, .start t⟩] := by
  obtain ⟨m, hm⟩ := header_found file t {}
  refine ⟨m, ?_⟩
  rw [scan, scanWith, hm]
  split <;> rfl

/-- Once its header is documented, a docstring opens the text. -/
theorem opened_header (file : Path) (t : Text) : opened (headerPlan.filled file t) = true := by
  obtain ⟨m, hm⟩ := header_candidates file t
  have hblocks : headerPlan.blocks file t = if opened t then [] else
      [placeholderBlock (style .header) (headerGrammar.candidateOf file t 1 m ⟨.start t, .start t⟩)] := by
    rw [KindPlan.blocks, show headerPlan.grammar = headerGrammar from rfl, hm]
    split <;> rfl
  rw [KindPlan.filled, hblocks]
  split
  · assumption
  · generalize hc : headerGrammar.candidateOf file t 1 m ⟨.start t, .start t⟩ = c
    have hplain : c.Plain := by
      rw [← hc]
      exact plain_candidateOf _ _ _ _ _ _
    have hpoint : (placeholderBlock (style .header) c).point? t = some ⟨[], t, false⟩ := by
      have hstart : Text.EndsLine [] := .inl rfl
      rw [← hc]
      exact Block.point?_before rfl rfl hstart (List.not_mem_nil : '\n' ∉ [])
    obtain ⟨⟨b, rest, hb, hdoc⟩, -, -⟩ := docstring_block .header hplain t
    have happly : applyBlocks? t [placeholderBlock (style .header) c] =
        some (Block.withEnding t.lineEnding (placeholderBlock (style .header) c).text ++ t) := by
      simp [applyBlocks?, sorted, insertSorted, Block.splice?, hpoint, Block.insertion]
    rw [happly, Option.getD_some, hdoc]
    exact opened_iff.2 ⟨b, rest ++ t, hb, by simp⟩

/-! ## All kinds -/

/-- **After one round nothing is left to document exactly when only blanks
followed the classes and the methods on their lines.** -/
theorem nothing_left_iff {file : Path} {t : Text} (hopened : opened t = true)
    (hclass : (classGrammar.matchedNames file t).Nodup)
    (hmethod : (methodGrammar.matchedNames file (classPlan.filled file t)).Nodup) :
    (∀ k ∈ plan.kinds,
        (scan k.grammar file (methodPlan.filled file (classPlan.filled file t)) none).1.candidates = []) ↔
      classPlan.Clean file t ∧ methodPlan.Clean file (classPlan.filled file t) := by
  obtain ⟨m, hm⟩ := methodForm.exists_sweeps (classPlan.filled file t)
  have hmethods := method_documents.candidates_filled_iff method_quietInCalm hmethod
  constructor
  · intro hnone
    have hclean : methodPlan.Clean file (classPlan.filled file t) :=
      hmethods.1 (hnone methodPlan (by simp [plan]))
    refine ⟨Classical.byContradiction fun hbad => ?_, hclean⟩
    obtain ⟨l, x, y, hpass, hx, hstuck⟩ := class_documents.reopened class_quietInCalm hclass hbad
    obtain ⟨l', x', y', hl', hopen⟩ :=
      class_stuck hmethod hm ((method_documents.clean_iff hmethod hm).1 hclean) hpass hx hstuck
    exact (class_documents.candidates_eq_nil_iff hl').1 (hnone classPlan (by simp [plan])) x' y' hopen
  · rintro ⟨hcleanc, hcleanm⟩
    obtain ⟨l, hl, hnone⟩ := class_documents.settled class_quietInCalm hclass hcleanc
    obtain ⟨l', hl', hnone'⟩ :=
      class_settled hmethod hm ((method_documents.clean_iff hmethod hm).1 hcleanm) hl hnone
    have hopened' := opened_filled method_documents hmethod (opened_filled class_documents hclass hopened)
    obtain ⟨_, hheader⟩ := header_candidates file (methodPlan.filled file (classPlan.filled file t))
    rw [hopened', if_pos rfl] at hheader
    simp only [plan, List.forall_mem_cons, List.not_mem_nil, false_implies, implies_true, and_true]
    exact ⟨hheader, (class_documents.candidates_eq_nil_iff hl').2 hnone', hmethods.2 hcleanm⟩

end Python
end DocScribe
