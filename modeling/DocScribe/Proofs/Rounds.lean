/-
Rounds of insertions, and the rounds that documenting a file is made of.

A round scans a text, gives blocks to some of its candidates, records them and
puts them in (`Round.step?`). `LineHistory.Traces` survives every round, so it
holds after any number of them, and after the kinds of construct of a file have
been worked on one by one (`Documenter.documentKinds_traces`). The lines of a
change are therefore compared with the lines that constructs had in the file as
it was read (`lines_traced`).

A round is asked to have its groups in order in every text. Grammars whose
tokens are read alone have them so (`Grammar.ReadAlone.orderedIn`), and with
them the plans of a catalog (`Catalog.orderedIn_of_readAlone`).
-/
import DocScribe.Proofs.ChangeFilter
import DocScribe.Proofs.LineTracing
import DocScribe.Proofs.PythonMatches
import DocScribe.Proofs.WorkFacts

namespace DocScribe

/-! ## Rounds -/

/-- The lines of one text stand in another, in their order, each unchanged or
with the line feed it lacked, and the history leads them back. -/
structure LineHistory.Traces (history : LineHistory) (t t' : Text) (pos : Nat → Nat) : Prop where
  mono : ∀ l l', l < l' → pos l < pos l'
  kept : ∀ l, 1 ≤ l → l ≤ 1 + t.feeds → ∃ line line', Text.line? l t = some line ∧
    Text.line? (pos l) t' = some line' ∧ Text.Kept line line'
  back : ∀ l, history.initialLine (pos l) = l

open LineHistory

theorem LineHistory.Traces.start (t : Text) : Traces {} t t id := by
  refine ⟨fun _ _ h => h, fun l h1 h2 => ?_, fun _ => rfl⟩
  obtain ⟨line, hline⟩ := Text.exists_line? h1 h2
  exact ⟨line, line, hline, hline, .inl rfl⟩

theorem LineHistory.Traces.moves {history : LineHistory} {t u u' : Text} {pos : Nat → Nat} {layer : Layer}
    (h : history.Traces t u pos) (hsorted : layer.Pairwise fun a b => a.1 ≤ b.1) (hmoves : Moves u layer u') :
    Traces ⟨layer :: history.layers⟩ t u' fun l => push layer (pos l) where
  mono l l' hl := push_lt layer (h.mono l l' hl)
  kept l h1 h2 := by
    obtain ⟨line, line', hline, hline', hkept⟩ := h.kept l h1 h2
    obtain ⟨line'', hline'', hkept'⟩ := hmoves _ _ hline'
    exact ⟨line, line'', hline, hline'', hkept.trans hkept'⟩
  back l := by
    show initialLine history (lineBefore layer (push layer (pos l))) = l
    rw [lineBefore_push hsorted, h.back]

/-- One round of work on a text: what is looked for, and the block, ended by a
line feed, for each candidate that gets one. -/
structure Round where
  grammar : Grammar
  file : Path
  change : Option FileChange
  attach : Candidate → Option Block
  ordered : ∀ t, grammar.OrderedIn t
  fits : ∀ c, ∀ b ∈ attach c, b.Fits c
  ended : ∀ c, ∀ b ∈ attach c, b.Ended

namespace Round

/-- The blocks of a round. -/
def blocks (r : Round) (t : Text) (history : LineHistory) : List Block :=
  (scanWith r.grammar r.file t r.change history).1.candidates.filterMap r.attach

/-- The text and the history after a round. -/
def step? (state : Text × LineHistory) (r : Round) : Option (Text × LineHistory) :=
  (state.2.record? state.1 (r.blocks state.1 state.2)).bind fun history =>
    (applyBlocks? state.1 (r.blocks state.1 state.2)).map fun t => (t, history)

end Round

section round
variable {g : Grammar} {file : Path} {t u : Text} {change : Option FileChange} {history scanned : LineHistory}
  {blocks : List Block} {pos : Nat → Nat}

/-- Recording and putting in the blocks of a scan succeeds, and the history
still leads back. -/
theorem traces_of_scan (ho : g.OrderedIn u)
    (hblocks : BlocksFor (scanWith g file u change scanned).1.candidates blocks)
    (hend : ∀ b ∈ blocks, b.Ended) (h : history.Traces t u pos) :
    ∃ history' u', history.record? u blocks = some history' ∧ applyBlocks? u blocks = some u' ∧
      ∃ pos', history'.Traces t u' pos' := by
  obtain ⟨layer, u', hrecord, happly, hsorted, hmoves⟩ := (stacked_of_scan ho hblocks).moves hend history
  exact ⟨_, u', hrecord, happly, _, h.moves hsorted hmoves⟩

end round

theorem Round.step?_traces (r : Round) {t u : Text} {history : LineHistory} {pos : Nat → Nat}
    (h : history.Traces t u pos) :
    ∃ u' history', Round.step? (u, history) r = some (u', history') ∧ ∃ pos', history'.Traces t u' pos' := by
  have hblocks : BlocksFor (scanWith r.grammar r.file u r.change history).1.candidates (r.blocks u history) :=
    ⟨r.attach, fun c _ => r.fits c, .refl _⟩
  have hend : ∀ b ∈ r.blocks u history, b.Ended := fun b hb => by
    obtain ⟨c, -, hcb⟩ := List.mem_filterMap.1 hb
    exact r.ended c b hcb
  obtain ⟨history', u', hrecord, happly, htraces⟩ := traces_of_scan (r.ordered u) hblocks hend h
  refine ⟨u', history', ?_, htraces⟩
  simp only [Round.step?, hrecord, happly, Option.bind_some, Option.map_some]

/-- Any number of rounds succeeds and is traced back. -/
theorem Round.foldlM_traces (rounds : List Round) {t u : Text} {history : LineHistory} {pos : Nat → Nat}
    (h : history.Traces t u pos) :
    ∃ u' history', rounds.foldlM Round.step? (u, history) = some (u', history') ∧
      ∃ pos', history'.Traces t u' pos' := by
  induction rounds generalizing u history pos with
  | nil => exact ⟨u, history, rfl, pos, h⟩
  | cons r rounds ih =>
    obtain ⟨v, between, hr, pos', h'⟩ := r.step?_traces h
    obtain ⟨u', history', hrest, htraces⟩ := ih h'
    refine ⟨u', history', ?_, htraces⟩
    rw [List.foldlM_cons, hr]
    exact hrest

/-! ## The blocks of a document -/

theorem endsLine_flatten (ls : List Text) : Text.EndsLine (ls.map fun line => line ++ ['\n']).flatten := by
  induction ls with
  | nil => exact .inl rfl
  | cons line ls ih => exact (Text.EndsLine.feed line).append ih

theorem indentBlock_ended (block inner margin : Text) :
    ∃ s, indentBlock block inner margin = s ++ ['\n'] := by
  rcases endsLine_flatten (indentLines inner margin (Text.segments block)) with hnil | hfeed
  · obtain ⟨p, ps, hp⟩ := List.exists_cons_of_ne_nil (Text.pieces_ne_nil (· == '\n') block)
    simp [Text.segments, hp, indentLines] at hnil
  · exact hfeed

theorem Style.render_fits {style : Style} {c : Candidate} {d : DocText} {b : Block}
    (h : style.render c d = .ok b) : b.Fits c ∧ b.Ended := by
  unfold Style.render at h
  cases hlayout : style.layout c d with
  | error e => rw [hlayout] at h; cases h
  | ok t =>
    rw [hlayout] at h
    cases h
    exact ⟨⟨rfl, rfl, rfl⟩, indentBlock_ended _ _ _⟩

namespace Documenter

variable {σ : Type} {d : Documenter σ} {w w' : World σ}

theorem reviewed?_fits {c : Candidate} {b : Block} {result : Option Block} (hb : b.Fits c ∧ b.Ended)
    (h : Work.runIn w (d.reviewed? c b) = (.ok result, w')) : ∀ x ∈ result, x.Fits c ∧ x.Ended := by
  unfold reviewed? at h
  split at h
  · obtain ⟨answer, w₁, -, h⟩ := Work.runIn_bind_ok.1 h
    dsimp only at h
    split at h
    · obtain ⟨_, w₂, -, h⟩ := Work.runIn_bind_ok.1 h
      cases h
      exact fun x hx => nomatch hx
    · next hne =>
      cases h
      rintro x hx
      cases hx
      refine ⟨⟨hb.1.start, hb.1.stop, hb.1.placement⟩, ?_⟩
      rcases endsLine_flatten (Review.between (Text.lines answer)) with hnil | hfeed
      · exact absurd (List.isEmpty_iff.2 hnil) hne
      · exact hfeed
  · cases h
    rintro x hx
    cases hx
    exact hb

theorem blockFor_fits {style : Style} {c : Candidate} {result : Option Block}
    (h : Work.runIn w (d.blockFor style c) = (.ok result, w')) : ∀ x ∈ result, x.Fits c ∧ x.Ended := by
  unfold blockFor at h
  obtain ⟨text, w₁, -, h⟩ := Work.runIn_bind_ok.1 h
  split at h
  · next b hrender => exact reviewed?_fits (Style.render_fits hrender) h
  · cases h

/-- Candidates that received blocks: each as it was, with its block. -/
theorem writeBlocks_picked {style : Style} {cs cs' : List Candidate}
    (h : Work.runIn w (d.writeBlocks style cs) = (.ok cs', w')) :
    ∃ picked : List (Candidate × Option Block), picked.map (·.1) = cs ∧
      cs' = picked.map (fun p => { p.1 with block := p.2 }) ∧
      ∀ p ∈ picked, ∀ b ∈ p.2, b.Fits p.1 ∧ b.Ended := by
  induction cs generalizing cs' w with
  | nil =>
    cases h
    exact ⟨[], rfl, rfl, by simp⟩
  | cons c cs ih =>
    unfold writeBlocks at h
    obtain ⟨block, w₁, hblock, h⟩ := Work.runIn_bind_ok.1 h
    obtain ⟨others, w₂, hothers, h⟩ := Work.runIn_bind_ok.1 h
    cases h
    obtain ⟨picked, rfl, rfl, hfits⟩ := ih hothers
    refine ⟨(c, block) :: picked, rfl, rfl, fun p hp => ?_⟩
    rcases List.mem_cons.1 hp with rfl | hp
    · exact blockFor_fits hblock
    · exact hfits p hp

end Documenter

theorem BlocksFor.of_picked {picked : List (Candidate × Option Block)} (hnodup : (picked.map (·.1)).Nodup)
    (hfits : ∀ p ∈ picked, ∀ b ∈ p.2, b.Fits p.1) :
    BlocksFor (picked.map (·.1)) (picked.filterMap (·.2)) := by
  have hfind : ∀ p ∈ picked, picked.find? (fun q => q.1 = p.1) = some p := by
    intro p hp
    induction picked with
    | nil => cases hp
    | cons q picked ih =>
      obtain ⟨hq, hnodup⟩ := List.nodup_cons.1 hnodup
      rcases List.mem_cons.1 hp with rfl | hp
      · simp
      · have hne : q.1 ≠ p.1 := fun heq => hq (List.mem_map.2 ⟨p, hp, heq.symm⟩)
        rw [List.find?_cons_of_neg (by simpa using hne)]
        exact ih hnodup (fun p hp => hfits p (List.mem_cons_of_mem q hp)) hp
  refine ⟨fun c => (picked.find? fun q => q.1 = c).bind (·.2), ?_, ?_⟩
  · intro c hc b hb
    obtain ⟨p, hp, rfl⟩ := List.mem_map.1 hc
    simp only [hfind p hp, Option.bind_some] at hb
    exact hfits p hp b hb
  · have hsame : picked.map (·.2) =
        picked.map fun p => (picked.find? fun q => q.1 = p.1).bind (·.2) :=
      List.map_congr_left fun p hp => by rw [hfind p hp, Option.bind_some]
    have hblocks := congrArg (List.filterMap id) hsame
    rw [List.filterMap_map, List.filterMap_map] at hblocks
    rw [List.filterMap_map]
    exact .of_eq hblocks

namespace Documenter

variable {σ : Type} {d : Documenter σ} {w w' : World σ} {file : Path} {change : Option FileChange}

theorem withBlocks?_eq_some {draft draft' : Draft} {kind : Kind} {cs : List Candidate}
    (h : draft.withBlocks? kind cs = some draft') :
    draft.history.record? draft.content (cs.filterMap (·.block)) = some draft'.history ∧
      applyBlocks? draft.content (cs.filterMap (·.block)) = some draft'.content := by
  obtain ⟨history, hrecord, h⟩ := Option.bind_eq_some_iff.1 h
  obtain ⟨content, happly, rfl⟩ := Option.map_eq_some_iff.1 h
  exact ⟨hrecord, happly⟩

/-- What filling the candidates of a scan does to a draft: nothing, or one
round. -/
theorem fillKind_cases {k : KindPlan} {cs : List Candidate} {draft draft' : Draft} (hnodup : cs.Nodup)
    (h : Work.runIn w (d.fillKind file k cs draft) = (.ok draft', w')) :
    draft' = draft ∨ ∃ blocks, BlocksFor cs blocks ∧ (∀ b ∈ blocks, b.Ended) ∧
      draft.history.record? draft.content blocks = some draft'.history ∧
      applyBlocks? draft.content blocks = some draft'.content := by
  unfold fillKind at h
  obtain ⟨filled, w₁, hfilled, h⟩ := Work.runIn_bind_ok.1 h
  obtain ⟨picked, rfl, rfl, hfits⟩ := writeBlocks_picked hfilled
  split at h
  · cases h
    exact .inl rfl
  split at h
  · cases h
  · next after hafter =>
    have hdraft : draft' = after := by
      dsimp only at h
      split at h
      · cases h
        rfl
      · obtain ⟨_, _, -, h⟩ := Work.runIn_bind_ok.1 h
        cases h
        rfl
    subst hdraft
    obtain ⟨hrecord, happly⟩ := withBlocks?_eq_some hafter
    have hblocks : (picked.map fun p => { p.1 with block := p.2 : Candidate }).filterMap (·.block) =
        picked.filterMap (·.2) := List.filterMap_map
    rw [hblocks] at hrecord happly
    refine .inr ⟨_, .of_picked hnodup fun p hp b hb => (hfits p hp b hb).1, fun b hb => ?_, hrecord, happly⟩
    obtain ⟨p, hp, hpb⟩ := List.mem_filterMap.1 hb
    exact (hfits p hp b hpb).2

theorem nodup_candidates (g : Grammar) (file : Path) (t : Text) (change : Option FileChange)
    (history : LineHistory) : (scanWith g file t change history).1.candidates.Nodup :=
  (List.pairwise_map.1 (scanWith_sound g file t change history).nodup).imp fun hne heq => hne (by rw [heq])

/-- **Working on one kind of construct keeps the history right.** -/
theorem documentKind_traces {k : KindPlan} {draft draft' : Draft} {t : Text} {pos : Nat → Nat}
    (ho : k.grammar.OrderedIn draft.content)
    (h : Work.runIn w (d.documentKind file change k draft) = (.ok (some draft'), w'))
    (ht : draft.history.Traces t draft.content pos) :
    ∃ pos', draft'.history.Traces t draft'.content pos' := by
  unfold documentKind at h
  obtain ⟨_, w₁, -, h⟩ := Work.runIn_bind_ok.1 h
  split at h
  · cases h
    exact ⟨pos, ht⟩
  obtain ⟨wanted, w₂, -, h⟩ := Work.runIn_bind_ok.1 h
  split at h
  · obtain ⟨filled, h, hfilled⟩ := Work.runIn_map_ok.1 h
    cases hfilled
    rcases fillKind_cases (nodup_candidates _ _ _ _ _) h with rfl | ⟨blocks, hblocks, hend, hrecord, happly⟩
    · exact ⟨pos, ht⟩
    · obtain ⟨history', u', hrecord', happly', htraces⟩ := traces_of_scan ho hblocks hend ht
      rw [hrecord, Option.some.injEq] at hrecord'
      rw [happly, Option.some.injEq] at happly'
      rw [hrecord', happly']
      exact htraces
  · cases h

/-- **So does working on one kind after the other.** -/
theorem documentKinds_traces {kinds : List KindPlan} {draft draft' : Draft} {t : Text} {pos : Nat → Nat}
    (ho : ∀ k ∈ kinds, ∀ t, k.grammar.OrderedIn t)
    (h : Work.runIn w (d.documentKinds file change kinds draft) = (.ok (some draft'), w'))
    (ht : draft.history.Traces t draft.content pos) :
    ∃ pos', draft'.history.Traces t draft'.content pos' := by
  induction kinds generalizing draft pos w with
  | nil =>
    cases h
    exact ⟨pos, ht⟩
  | cons k kinds ih =>
    unfold documentKinds at h
    obtain ⟨next?, w₁, hk, h⟩ := Work.runIn_bind_ok.1 h
    cases next? with
    | none => cases h
    | some next =>
      obtain ⟨pos', ht'⟩ := documentKind_traces (ho k List.mem_cons_self _) hk ht
      exact ih (fun k' hk' => ho k' (List.mem_cons_of_mem k hk')) h ht'

end Documenter

/-! ## The lines of a change -/

/-- **Any number of rounds succeeds, keeps the lines of the first text in
their order, and can be traced back.** In particular, once some kinds of
construct of a file have been worked on, a change is compared with the line
that a construct had in the file as it was read. -/
theorem lines_traced (before : Text) :
    (∀ rounds : List Round, ∃ t history, rounds.foldlM Round.step? (before, {}) = some (t, history) ∧
      ∃ pos, history.Traces before t pos) ∧
    ∀ (σ : Type) (d : Documenter σ) (file : Path) (change : FileChange) (kinds : List KindPlan)
      (w w' : World σ) (draft : Draft), (∀ k ∈ kinds, ∀ t, k.grammar.OrderedIn t) →
      Work.runIn w (d.documentKinds file (some change) kinds { content := before }) = (.ok (some draft), w') →
      ∃ pos, draft.history.Traces before draft.content pos ∧
        ∀ (k : KindPlan) (c : Candidate) (l : Nat), c.line = pos l →
          (c ∈ k.grammar.found file draft.content (some change) draft.history ↔
            c ∈ k.grammar.found file draft.content none draft.history ∧ change.touches l c.text = true) := by
  refine ⟨fun rounds => Round.foldlM_traces rounds (.start before), ?_⟩
  intro σ d file change kinds w w' draft ho h
  obtain ⟨pos, htraces⟩ := Documenter.documentKinds_traces ho h (.start before)
  refine ⟨pos, htraces, fun k c l hline => ?_⟩
  rw [mem_found_change, hline, htraces.back]

/-! A change to the second of two functions. The file receives a header before
its functions are looked for. -/

namespace ChangedBelow

def text : Text := "def f():\n    pass\n\ndef g():\n    pass\n"

def file : Path := ⟨"a.py"⟩

def change : FileChange := ⟨file, [⟨1, 5, "def g():\n    pass\n"⟩]⟩

def documenter : Documenter Unit := { catalog := ⟨[], []⟩, prompter := .placeholder }

def world : World Unit := { tree := { nodes := [(["a.py"], .file (.text text))] }, prompt := () }

def outcome : Except Failure (Option Draft) × World Unit :=
  Work.runIn world (documenter.documentKinds file (some change) Python.plan.kinds { content := text })

def updated : Text :=
  "\"\"\"\n<docstring>\n\"\"\"\n".toList ++ "def f():\n    pass\n\n".toList ++
    "def g():\n    \"\"\"\n    <docstring>\n\n    \"\"\"\n    pass\n".toList

theorem exists_draft {x : Except Failure (Option Draft) × World Unit} {t : Text}
    (h : x.1.toOption.join.map (·.content) = some t) :
    ∃ draft w', x = (.ok (some draft), w') ∧ draft.content = t := by
  obtain ⟨result, w'⟩ := x
  obtain ⟨draft, hdraft, hcontent⟩ := Option.map_eq_some_iff.1 h
  exact ⟨draft, w', congrArg (·, w') (eq_ok_of_toOption (Option.join_eq_some_iff.1 hdraft)), hcontent⟩

set_option maxRecDepth 100000 in
theorem outcome_eq : ∃ draft w', outcome = (.ok (some draft), w') ∧ draft.content = updated :=
  exists_draft (by decide +kernel)

/-- A round that puts a comment at every method. -/
def comments : Round where
  grammar := Python.methodGrammar
  file := file
  change := none
  attach c := some ⟨"#\n", c.start, c.stop, c.placement, c.withinScope⟩
  ordered := Python.method_reads.orderedIn
  fits := by
    rintro c b hb
    cases hb
    exact ⟨rfl, rfl, rfl⟩
  ended := by
    rintro c b hb
    cases hb
    exact ⟨['#'], rfl⟩

theorem lines_traced_updated :
    (∃ t history, [comments, comments].foldlM Round.step? (text, {}) = some (t, history) ∧
      ∃ pos, history.Traces text t pos) ∧
    ∃ draft w', outcome = (.ok (some draft), w') ∧ draft.content = updated ∧
      ∃ pos, draft.history.Traces text draft.content pos := by
  obtain ⟨hrounds, hkinds⟩ := lines_traced text
  refine ⟨hrounds [comments, comments], ?_⟩
  obtain ⟨draft, w', houtcome, hupdated⟩ := outcome_eq
  obtain ⟨pos, htraces, -⟩ :=
    hkinds Unit documenter file change _ world w' draft Python.plan_ordered houtcome
  exact ⟨draft, w', houtcome, hupdated, pos, htraces⟩

end ChangedBelow
end DocScribe
