/-
Blocks are recognised as documentation, whatever they say.

Putting blocks into a text moves its places: each comes to stand behind all
that goes in at it or before it (`moved`, `size_weave_putAt`). A signature that
only blanks follow on its line keeps its extent there, because no block goes
into a signature, and behind it comes the block it received
(`Safe.opened_thread`). Every block starts with the quotes that open a docstring
(`Style.render_opened`), so no candidate starts at the signature any more
(`Grammar.Reads.not_found_of_opened`). What the blocks say after these quotes is
never looked at: they may hold signatures of their own, and quotes.
-/
import DocScribe.Proofs.Redocumenting

namespace DocScribe

/-! ## Where the places of a text go -/

/-- How much blocks put into a text at a place or before it. -/
def movedBy (t : Text) (blocks : List Block) (o : Nat) : Nat :=
  ((blocks.filter fun b => (b.offset? t).any (· ≤ o)).map fun b => (b.added t).size).sum

/-- Where a place of a text is once blocks are put in. -/
def moved (t : Text) (blocks : List Block) (o : Nat) : Nat := o + movedBy t blocks o

section moved
variable {t : Text} {b : Block} {bs bs' : List Block} {o : Nat}

theorem movedBy_perm (h : bs.Perm bs') (o : Nat) : movedBy t bs o = movedBy t bs' o :=
  ((h.filter _).map _).sum_nat

theorem moved_cons_before {n : Nat} (h : b.offset? t = some n) (hle : n ≤ o) :
    moved t (b :: bs) o = (b.added t).size + moved t bs o := by
  simp only [moved, movedBy, List.filter_cons, h, Option.any_some, hle, decide_true, if_true, List.map_cons,
    List.sum_cons]
  omega

theorem moved_cons_behind {n : Nat} (h : b.offset? t = some n) (hlt : o < n) : moved t (b :: bs) o = moved t bs o := by
  simp only [moved, movedBy, List.filter_cons, h, Option.any_some, Nat.not_le.2 hlt, decide_false,
    Bool.false_eq_true, if_false]

/-- **What stands in front of a place once blocks are put in has the size that
they move it to.** -/
theorem size_weave_putAt {a u : Text} (ht : t = a ++ u)
    (hplace : ∀ b ∈ bs, ∃ head tail, t = head ++ tail ∧ b.offset? t = some head.size) :
    (Text.weave (putAt t bs) 0 a).size = moved t bs a.size := by
  induction bs with
  | nil => rw [Text.weave_nothing (putAt t []) fun _ => rfl]; rfl
  | cons b bs ih =>
    have ih := ih fun b' hb' => hplace b' (List.mem_cons_of_mem b hb')
    obtain ⟨head, tail, ht', hoff⟩ := hplace b List.mem_cons_self
    have hother : ∀ n, n ≠ head.size → putAt t (b :: bs) n = putAt t bs n := fun n hn =>
      putAt_cons_other (by rw [hoff]; simpa using Ne.symm hn) bs
    -- One more block counts in full at or before the place, and not at all behind it.
    by_cases hle : head.size ≤ a.size
    · obtain ⟨mid, rfl, -⟩ := Text.append_of_size_le (ht'.symm.trans ht) hle
      have hfront : Text.weaveInit (putAt t (b :: bs)) 0 head = Text.weaveInit (putAt t bs) 0 head :=
        Text.weaveInit_congr fun n hn => hother n (by omega)
      have hback : Text.weave (putAt t (b :: bs)) head.size mid =
          b.added t ++ Text.weave (putAt t bs) head.size mid :=
        Text.weave_pull (putAt_cons_self hoff bs) fun n hn => hother n (by omega)
      rw [moved_cons_before hoff hle, ← ih, Text.weave_append, Text.weave_append, Nat.zero_add, hfront, hback]
      simp only [Text.size_append]
      omega
    · have hlt : a.size < head.size := Nat.lt_of_not_le hle
      rw [moved_cons_behind hoff hlt, ← ih, Text.weave_eq_weaveInit, Text.weave_eq_weaveInit,
        Text.weaveInit_congr fun n hn => hother n (by omega), hother _ (by omega)]

/-- A text that is put together with others, from a place on. -/
theorem weave_eq_append {put : Nat → Text} {a u : Text} (ht : t = a ++ u) :
    Text.weave put 0 t = Text.weave put 0 a ++ threadTail (fun v => put (t.size - v.size)) u := by
  have hsize : a.size + u.size = t.size := by rw [ht, Text.size_append]
  have hhere : t.size - u.size = 0 + a.size := by omega
  have hrest := weave_eq_thread put hsize
  rw [thread_eq, hhere] at hrest
  conv => lhs; rw [ht]
  rw [Text.weave_append, Nat.zero_add, hrest, Text.weave_eq_weaveInit, List.append_assoc]

end moved

/-! ## Behind a signature that received a docstring -/

section sweep
variable {F : Form} {ins : Text → Text} {I : Text → List (Text × Text) → List (Text × Text) → Prop}

/-- An invariant of a sweep holds wherever the sweep gets to. -/
theorem Safe.passes (hsafe : Safe F ins I) {t u : Text} {l : List (Text × Text)} (todo rest : List (Text × Text))
    (h : F.Passes t l u) (hI : I t (l ++ todo) rest) : I u todo rest := by
  induction h with
  | done t => exact hI
  | skip hquiet _ ih => exact ih (hsafe.skip _ _ _ _ hquiet hI)
  | take hx _ ih => exact ih (hsafe.take _ _ _ _ hx hI).2

/-- **A signature keeps its extent, and a docstring that is put in behind its
line opens what follows it** when the line holds only blanks. -/
theorem Safe.opened_thread (hsafe : Safe F ins I) (hopens : ∀ u, ins u ≠ [] → opened (ins u) = true)
    {t x y B R : Text} {l : List (Text × Text)} (h : F.Sweeps t l) (hI : I t l []) (hmem : (x, y) ∈ l)
    (hy : y = B ++ R) (hB : Blank B) (hins : ins R ≠ []) :
    threadTail ins (x ++ y) = x ++ thread ins y ∧ opened (thread ins y) = true := by
  obtain ⟨l₁, l₂, rfl⟩ := List.append_of_mem hmem
  obtain ⟨hfront, hx, -⟩ := h.split l₁
  have hhere := hsafe.passes ((x, y) :: l₂) [] hfront hI
  refine ⟨(hsafe.firm _ _ _ hhere).threadTail_sig hx, ?_⟩
  obtain ⟨hgap, -⟩ := hsafe.take x y l₂ [] hx hhere
  obtain ⟨s, -, -, -, hthread⟩ := thread_of_gap_place hgap hy (OwnCuts.length_le_gap hy hB) hins
  rw [hthread, opened_blank_append hB]
  exact opened_append (hopens R hins) _

end sweep

/-! ## Blocks start with quotes -/

/-- Line endings are changed behind the first line. -/
theorem Block.withEnding_append {a : Text} (ha : '\n' ∉ a) (newline rest : Text) :
    ∃ rest', withEnding newline (a ++ rest) = a ++ rest' := by
  unfold withEnding
  split
  · exact ⟨rest, rfl⟩
  · exact ⟨_, by rw [List.flatMap_append, flatMap_ending_eq_self ha]⟩

/-- **A layout that starts with quotes makes a block of every text**, and the
block opens a docstring. -/
theorem Style.render_opened {s : Style} (htemplate : s.template = none) (hopen : s.docOpen = quotes)
    {c : Candidate} (hc : c.Plain) (d : DocText) :
    ∃ b, s.render c d = .ok b ∧ b.Fits c ∧ ∀ newline, opened (Block.withEnding newline b.text) = true := by
  refine ⟨⟨indentBlock (Text.joinLines (s.parts d)) s.innerIndent c.indentation, c.start, c.stop, c.placement,
    c.withinScope⟩, ?_, ⟨rfl, rfl, rfl⟩, fun newline => ?_⟩
  · simp only [Style.render, Style.layout, htemplate]
    rfl
  obtain ⟨rest, hrest, hne⟩ : ∃ rest, s.parts d = quotes :: rest ∧ rest ≠ [] := by
    rw [Style.parts, hopen]
    exact ⟨_, rfl, by simp⟩
  have hmore := segments_joinLines_cons (l := quotes) (by decide) hne
  have hfirst : indentLine c.indentation quotes = c.indentation ++ quotes := rfl
  have hfeed : '\n' ∉ c.indentation ++ quotes := by
    rw [List.mem_append, not_or]
    exact ⟨hc.margin.one, by decide⟩
  dsimp only
  rw [hrest, indentBlock, hmore, indentLines, hfirst, List.map_cons, List.flatten_cons, List.append_assoc]
  obtain ⟨rest', hrest'⟩ := Block.withEnding_append hfeed newline _
  rw [hrest', List.append_assoc]
  exact opened_iff.2 ⟨c.indentation, rest', hc.margin.blank, rfl⟩

theorem opened_added {t : Text} {b : Block} (h : ∀ newline, opened (Block.withEnding newline b.text) = true) :
    opened (b.added t) = true := by
  rw [Block.added, opened_blank_append (blank_fresh t b)]
  exact h _

theorem opened_putAt {t : Text} {bs : List Block} {o : Nat} (h : ∀ b ∈ bs, opened (b.added t) = true)
    (hne : putAt t bs o ≠ []) : opened (putAt t bs o) = true := by
  have hall : ∀ b ∈ bs.filter fun b => b.offset? t = some o, opened (b.added t) = true := fun b hb =>
    h b (List.mem_filter.1 hb).1
  unfold putAt at hne ⊢
  cases hbs : bs.filter fun b => b.offset? t = some o with
  | nil => rw [hbs] at hne; exact absurd rfl hne
  | cons b rest =>
    rw [List.flatMap_cons]
    exact opened_append (hall b (by rw [hbs]; exact List.mem_cons_self)) _

theorem putAt_ne_nil {t : Text} {bs : List Block} {b : Block} {o : Nat} (hb : b ∈ bs) (ho : b.offset? t = some o)
    (hopened : opened (b.added t) = true) : putAt t bs o ≠ [] := by
  intro hnil
  rw [putAt, List.flatMap_eq_nil_iff] at hnil
  rw [hnil b (List.mem_filter.2 ⟨hb, decide_eq_true ho⟩)] at hopened
  cases hopened

/-! ## Candidates and signatures -/

/-- **No candidate starts where a signature stands that a docstring follows.** -/
theorem Grammar.Reads.not_found_of_opened {g : Grammar} {F : Form} (hreads : g.Reads F) {t front x y : Text}
    (ht : t = front ++ (x ++ y)) (hx : F.Sig x) (hopened : opened y = true) {file : Path} {c : Candidate}
    (hc : c ∈ (scan g file t none).1.candidates) : c.start ≠ front.size := by
  intro hstart
  obtain ⟨l, hl⟩ := F.exists_sweeps t
  obtain ⟨a, x', y', hstands, hopen⟩ := hreads.found_open hl (found_of_mem_candidates hc)
  obtain ⟨hx', -⟩ := Form.Passes.mem hl hopen.mem
  obtain ⟨-, hrest⟩ := Text.eq_of_append_size (hstands.split.symm.trans ht) (by rw [← hstands.start, hstart])
  -- Signatures that start at one place are the same.
  obtain ⟨-, rfl⟩ := Form.unique hx' hx hrest
  rw [hopen.not_opened] at hopened
  cases hopened

/-! ## The blocks of one kind of construct -/

theorem mapM_eq_ok_filterMap {α β ε : Type} {f : α → Except ε β} {l : List α} (h : ∀ a ∈ l, ∃ b, f a = .ok b) :
    l.mapM f = .ok (l.filterMap fun a => (f a).toOption) := by
  induction l with
  | nil => rfl
  | cons a l ih =>
    obtain ⟨b, hb⟩ := h a List.mem_cons_self
    rw [List.mapM_cons, ih fun a' ha' => h a' (List.mem_cons_of_mem a ha'), List.filterMap_cons, hb]
    rfl

namespace KindPlan

/-- The blocks that say something about each candidate of a text. -/
def told (k : KindPlan) (file : Path) (t : Text) (docs : Candidate → DocText) : List Block :=
  (scan k.grammar file t none).1.candidates.filterMap fun c => (k.style.render c (docs c)).toOption

/-- What they put in front of a part that ends the text. -/
def tells (k : KindPlan) (file : Path) (t : Text) (docs : Candidate → DocText) (u : Text) : Text :=
  putAt t (byStart (k.told file t docs)) (t.size - u.size)

/-- A plan for constructs of a form, whose blocks start with quotes. -/
structure Quotes (k : KindPlan) (F : Form) : Prop where
  reads : k.grammar.Reads F
  template : k.style.template = none
  docOpen : k.style.docOpen = quotes

namespace Quotes

variable {k : KindPlan} {F : Form} {file : Path} {t : Text} {docs : Candidate → DocText} {l : List (Text × Text)}
  {b : Block} {c : Candidate}

theorem render_candidate (hk : k.Quotes F) (hc : c ∈ (scan k.grammar file t none).1.candidates) (d : DocText) :
    ∃ b, k.style.render c d = .ok b ∧ b.Fits c ∧ opened (b.added t) = true := by
  obtain ⟨m, s, -, -, -, -, -, rfl⟩ := mem_candidates hc
  obtain ⟨b, hrender, hfits, hopened⟩ :=
    Style.render_opened hk.template hk.docOpen (plain_candidateOf _ _ _ _ _ _) d
  exact ⟨b, hrender, hfits, opened_added hopened⟩

theorem mapM_render (hk : k.Quotes F) (file : Path) (t : Text) (docs : Candidate → DocText) :
    (scan k.grammar file t none).1.candidates.mapM (fun c => k.style.render c (docs c)) =
      .ok (k.told file t docs) :=
  mapM_eq_ok_filterMap fun c hc => by
    obtain ⟨b, hb, -⟩ := hk.render_candidate hc (docs c)
    exact ⟨b, hb⟩

theorem exists_told (hk : k.Quotes F) (docs : Candidate → DocText)
    (hc : c ∈ (scan k.grammar file t none).1.candidates) :
    ∃ b ∈ k.told file t docs, b.Fits c ∧ opened (b.added t) = true := by
  obtain ⟨b, hb, hfits⟩ := hk.render_candidate hc (docs c)
  exact ⟨b, List.mem_filterMap.2 ⟨c, hc, by rw [hb]; rfl⟩, hfits⟩

theorem fits_of_render (hk : k.Quotes F) (hc : c ∈ (scan k.grammar file t none).1.candidates) {d : DocText}
    (h : (k.style.render c d).toOption = some b) : b.Fits c ∧ opened (b.added t) = true := by
  obtain ⟨b', hb', hfits⟩ := hk.render_candidate hc d
  rw [hb'] at h
  cases h
  exact hfits

theorem of_mem_told (hk : k.Quotes F) (hb : b ∈ k.told file t docs) :
    ∃ c ∈ (scan k.grammar file t none).1.candidates, b.Fits c ∧ opened (b.added t) = true := by
  obtain ⟨c, hc, hcb⟩ := List.mem_filterMap.1 hb
  exact ⟨c, hc, hk.fits_of_render hc hcb⟩

theorem blocksFor (hk : k.Quotes F) (file : Path) (t : Text) (docs : Candidate → DocText) :
    BlocksFor (scan k.grammar file t none).1.candidates (k.told file t docs) :=
  ⟨fun c => (k.style.render c (docs c)).toOption, fun _ hc _ hcb => (hk.fits_of_render hc hcb).1, .refl _⟩

theorem opened_tells (hk : k.Quotes F) {u : Text} (hne : k.tells file t docs u ≠ []) :
    opened (k.tells file t docs u) = true := by
  refine opened_putAt (fun b hb => ?_) hne
  obtain ⟨c, -, -, hopened⟩ := hk.of_mem_told ((sorted_perm _ _).mem_iff.1 hb)
  exact hopened

/-- Blocks go behind the lines of candidates, which only blanks follow. -/
theorem keeps (hk : k.Quotes F) (docs : Candidate → DocText) (h : F.Sweeps t l) (hclean : k.Clean file t) :
    OwnCuts.Keeps F (k.tells file t docs)
      (fun _ y => ∃ c ∈ (scan k.grammar file t none).1.candidates, t.after? c.stop = some y) t l [] := by
  refine ⟨by rwa [List.append_nil], fun r R ht _ hne => ?_, ?_⟩
  · have hblocks : ∃ b ∈ byStart (k.told file t docs), b.offset? t = some (t.size - R.size) := by
      refine Classical.byContradiction fun hnone => hne (putAt_eq_nil fun b hb ho => hnone ⟨b, hb, ho⟩)
    obtain ⟨b, hb, ho⟩ := hblocks
    obtain ⟨c, hc, hfits, -⟩ := hk.of_mem_told ((sorted_perm _ _).mem_iff.1 hb)
    obtain ⟨a, x, y, B, hstands, hopen, hy, hline⟩ :=
      hk.reads.open_of_fits h (found_of_mem_candidates hc) hfits ht ho
    exact ⟨x, y, B, by simpa using hopen.mem, ⟨c, hc, hstands.after?⟩, hy, hline, hopen.not_opened⟩
  · rintro x y - ⟨c, hc, hafter⟩
    have halone := hclean c hc
    rwa [Candidate.Alone, hafter, Option.getD_some] at halone

/-- **Where a candidate stood, its signature stands in the text with the
blocks, and its own block opens what follows.** -/
theorem documented (hk : k.Quotes F) (docs : Candidate → DocText) (hclean : k.Clean file t)
    (hc : c ∈ (scan k.grammar file t none).1.candidates) :
    ∃ front rest, Text.weave (putAt t (byStart (k.told file t docs))) 0 t = front ++ (c.text ++ rest) ∧
      front.size = moved t (k.told file t docs) c.start ∧ F.Sig c.text ∧ opened rest = true := by
  obtain ⟨l, hl⟩ := F.exists_sweeps t
  obtain ⟨a, x, y, hstands, hopen⟩ := hk.reads.found_open hl (found_of_mem_candidates hc)
  obtain ⟨hx, -⟩ := Form.Passes.mem hl hopen.mem
  obtain ⟨B, R, hy, hline⟩ := exists_firstLine y
  obtain ⟨b, hb, hfits, hopened⟩ := hk.exists_told docs hc
  have hperm : (byStart (k.told file t docs)).Perm (k.told file t docs) := sorted_perm _ _
  -- What comes before the candidate cannot take its signature apart: blocks only go behind such signatures.
  have hkeeps := hk.keeps docs hl hclean
  have hblank : Blank B := (hline.blank_iff hy).2 (hkeeps.2.2 x y hopen.mem ⟨c, hc, hstands.after?⟩)
  have hput : k.tells file t docs R ≠ [] :=
    putAt_ne_nil (hperm.mem_iff.2 hb) (hstands.offset? hfits hy hline) hopened
  obtain ⟨htail, hdocumented⟩ := (OwnCuts.keeps_safe F (k.tells file t docs) _).opened_thread
    (fun _ => hk.opened_tells) hl hkeeps hopen.mem hy hblank hput
  have hplaces := (applyBlocks?_eq_weave (hk.reads.orderedIn t) (hk.blocksFor file t docs)).2.1
  refine ⟨Text.weave (putAt t (byStart (k.told file t docs))) 0 a, thread (k.tells file t docs) y, ?_, ?_,
    hstands.text ▸ hx, hdocumented⟩
  · rw [hstands.text, ← htail]
    exact weave_eq_append hstands.split
  · rw [size_weave_putAt hstands.split fun b hb => hplaces b (hperm.mem_iff.1 hb), hstands.start, moved, moved,
      movedBy_perm hperm]

end Quotes
end KindPlan

/-! ## Classes and methods of Python -/

namespace Python

theorem quotes_of_mem {k : KindPlan} (hk : k ∈ Format.python.plan.kinds) (hkind : k.grammar.shape.kind ≠ .header) :
    ∃ F, k.Quotes F := by
  rw [plan_eq] at hk
  simp only [plan, List.mem_cons, List.not_mem_nil, or_false] at hk
  rcases hk with rfl | rfl | rfl
  · exact absurd rfl hkind
  · exact ⟨classForm, class_reads, rfl, rfl⟩
  · exact ⟨methodForm, method_reads, rfl, rfl⟩

/-- **Blocks behind classes or methods that only blanks follow are recognised,
whatever they say**: they can be rendered and put in, every signature stands
where they move it to, and no candidate starts there any more. -/
theorem blocks_recognised {k : KindPlan} (hk : k ∈ Format.python.plan.kinds) (hkind : k.grammar.shape.kind ≠ .header)
    (file : Path) (t : Text) (docs : Candidate → DocText) (hclean : k.Clean file t) :
    ∃ blocks updated,
      (scan k.grammar file t none).1.candidates.mapM (fun c => k.style.render c (docs c)) = .ok blocks ∧
      applyBlocks? t blocks = some updated ∧
      ∀ c ∈ (scan k.grammar file t none).1.candidates,
        (∃ rest, updated.after? (moved t blocks c.start) = some (c.text ++ rest)) ∧
          ∀ c' ∈ (scan k.grammar file updated none).1.candidates, c'.start ≠ moved t blocks c.start := by
  obtain ⟨F, hquotes⟩ := quotes_of_mem hk hkind
  have happly := (stacked_of_scan (hquotes.reads.orderedIn t) (hquotes.blocksFor file t docs)).applyBlocks?_eq
  refine ⟨k.told file t docs, _, hquotes.mapM_render file t docs, happly, fun c hc => ?_⟩
  obtain ⟨front, rest, htext, hsize, hsig, hopened⟩ := hquotes.documented docs hclean hc
  rw [← hsize]
  refine ⟨⟨rest, ?_⟩, fun c' hc' => hquotes.reads.not_found_of_opened htext hsig hopened hc'⟩
  rw [htext, Text.after?, Text.cut?_size_append]
  rfl

end Python

/-! ### A method whose docstring reads like code -/

namespace Lookalike

def file : Path := ⟨"a.py"⟩

def text : Text := "class A:\n    def f(self, x):\n        return x\n\n    def g(self):  \n        pass\n"

/-- Quotes that close the docstring, and signatures behind them. -/
def docs (c : Candidate) : DocText :=
  ⟨"\"\"\" def f(self, x): class A:", c.arguments.map fun name => ⟨name, none, "def g(self):"⟩⟩

open Python in
set_option maxRecDepth 100000 in
theorem clean : methodPlan.Clean file text ∧
    (scan methodPlan.grammar file text none).1.candidates.map (·.name) = ["f".toList, "g".toList] := by
  decide

open Python in
theorem blocks_recognised_lookalike :
    methodPlan ∈ Format.python.plan.kinds ∧ methodPlan.grammar.shape.kind ≠ .header ∧ methodPlan.Clean file text ∧
      (scan methodPlan.grammar file text none).1.candidates.map (·.name) = ["f".toList, "g".toList] ∧
      ∃ blocks updated,
        (scan methodPlan.grammar file text none).1.candidates.mapM (fun c => methodPlan.style.render c (docs c)) =
          .ok blocks ∧
        applyBlocks? text blocks = some updated ∧
        ∀ c ∈ (scan methodPlan.grammar file text none).1.candidates,
          (∃ rest, updated.after? (moved text blocks c.start) = some (c.text ++ rest)) ∧
            ∀ c' ∈ (scan methodPlan.grammar file updated none).1.candidates, c'.start ≠ moved text blocks c.start := by
  have hmem : methodPlan ∈ Format.python.plan.kinds := by rw [plan_eq]; simp [plan]
  exact ⟨hmem, by decide, clean.1, clean.2, blocks_recognised hmem (by decide) file text docs clean.1⟩

end Lookalike
end DocScribe
