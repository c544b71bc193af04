/-
Methods with literal tokens: what is recognised in a text, and where.

`MethodCut` takes the signature of a method apart at its tokens. A match is a
signature that can be taken apart so, with an argument list that ends at the
first place where it can (`Grammar.exists_cut`); and wherever a text can be
taken apart so, there is a match (`Grammar.isSome_of_cut`).
-/
import DocScribe.Proofs.CatalogFacts
import DocScribe.Proofs.MethodSource
import DocScribe.Proofs.PatternRuns
import DocScribe.Proofs.Signatures
import DocScribe.Proofs.Sweep

namespace DocScribe

open Pattern

/-- What stands between the tokens of the signature of a method. -/
structure MethodCut where
  /-- Behind the indicator. -/
  gap : Text
  name : Text
  /-- Before the opening token. -/
  pad : Text
  /-- Between the opening and the closing token. -/
  list : Text
  /-- Before the end token. -/
  space : Text

namespace MethodCut

variable (c : MethodCut) (s : Shape) (a : ArgumentTokens)

/-- The signature, with its tokens. -/
def text : Text :=
  s.indicator ++ (c.gap ++ (c.name ++ (c.pad ++ (a.opening ++ (c.list ++ (a.closing ++ (c.space ++ s.ending)))))))

/-- Blanks stand where blanks have to, at least one behind the indicator. -/
structure Spaced : Prop where
  gap_ne : c.gap ≠ []
  gap : Blank c.gap
  pad : Blank c.pad
  space : Blank c.space

/-- No shorter argument list is followed by the closing token, blanks and the
end token; `rest` is the text behind the signature. -/
def Earliest (rest : Text) : Prop :=
  ∀ front back, c.list = front ++ back → back ≠ [] → ∀ blanks more, Blank blanks →
    back ++ (a.closing ++ (c.space ++ (s.ending ++ rest))) ≠ a.closing ++ (blanks ++ (s.ending ++ more))

/-- Where a trail comes behind the signature. -/
def through (t : Trail) : Trail :=
  let name := ((t.ahead s.indicator).remember "indicator" t.place).ahead c.gap
  let list := (((name.ahead c.name).remember "name" name.place).ahead c.pad).ahead a.opening
  let ending := (((list.ahead c.list).remember "args" list.place).ahead a.closing).ahead c.space
  (ending.ahead s.ending).remember "end" ending.place

end MethodCut

/-! ## Running the parts of a signature -/

section

variable {β : Type} {s : Shape} {a : ArgumentTokens} {t : Trail} {k : Trail → Option β} {b : β}

theorem exists_of_methodTail (h : (seqs (methodTail s a)).run t k = some b) :
    ∃ w R, t.place.rest = a.closing ++ (w ++ (s.ending ++ R)) ∧ Blank w ∧
      k ((((t.ahead a.closing).ahead w).ahead s.ending).remember "end" ((t.ahead a.closing).ahead w).place) = some b := by
  rw [methodTail, run_seqs_append] at h
  obtain ⟨hclosing, h⟩ := exists_of_token_eq_some h
  rw [run_seqs_cons] at h
  obtain ⟨w, hw, hblank, h, -⟩ := exists_of_star_eq_some h
  rw [seqs, run_group] at h
  obtain ⟨hending, h⟩ := exists_of_token_eq_some h
  exact ⟨w, _, by rw [hclosing, hw, hending], hblank, h⟩

theorem isSome_of_methodTail (hk : ∀ e, (k e).isSome = true) {w R : Text}
    (h : t.place.rest = a.closing ++ (w ++ (s.ending ++ R))) (hw : Blank w) :
    ((seqs (methodTail s a)).run t k).isSome = true := by
  have hclosing := Trail.ahead_rest h
  rw [methodTail, run_seqs_append, run_token h, run_seqs_cons]
  refine isSome_of_star hclosing hw ?_
  rw [seqs, run_group, run_token (Trail.ahead_rest hclosing)]
  exact hk _

/-- The argument list ends at the first place where the signature can go on
behind it. -/
theorem exists_of_methodList (hk : ∀ e, (k e).isSome = true) (h : (seqs (methodList s a)).run t k = some b) :
    ∃ list w R, t.place.rest = a.opening ++ (list ++ (a.closing ++ (w ++ (s.ending ++ R)))) ∧ Blank w ∧
      (∀ front back, list = front ++ back → back ≠ [] → ∀ blanks more, Blank blanks →
        back ++ (a.closing ++ (w ++ (s.ending ++ R))) ≠ a.closing ++ (blanks ++ (s.ending ++ more))) ∧
      let ending := ((((t.ahead a.opening).ahead list).remember "args" (t.ahead a.opening).place).ahead a.closing).ahead w
      k ((ending.ahead s.ending).remember "end" ending.place) = some b := by
  rw [methodList, run_seqs_append] at h
  obtain ⟨hopening, h⟩ := exists_of_token_eq_some h
  rw [run_seqs_cons, run_group] at h
  obtain ⟨list, hlist, -, h, hfirst⟩ := exists_of_star_eq_some h
  obtain ⟨w, R, htail, hw, h⟩ := exists_of_methodTail h
  rw [Trail.remember_place] at htail
  rw [htail] at hlist
  refine ⟨list, w, R, by rw [hopening, hlist], hw, fun front back hsplit hback blanks more hblanks heq => ?_, h⟩
  -- A shorter list would have answered first.
  have hrest : (t.ahead a.opening).place.rest = front ++ (back ++ (a.closing ++ (w ++ (s.ending ++ R)))) := by
    rw [hlist, hsplit, List.append_assoc]
  have hshorter : (((t.ahead a.opening).ahead front).remember "args" (t.ahead a.opening).place).place.rest =
      a.closing ++ (blanks ++ (s.ending ++ more)) := (Trail.ahead_rest hrest).trans heq
  have hsome := isSome_of_methodTail hk hshorter hblanks
  rw [hfirst rfl front back hsplit hback] at hsome
  cases hsome

theorem isSome_of_methodList (hk : ∀ e, (k e).isSome = true) {list w R : Text}
    (h : t.place.rest = a.opening ++ (list ++ (a.closing ++ (w ++ (s.ending ++ R))))) (hw : Blank w) :
    ((seqs (methodList s a)).run t k).isSome = true := by
  have hlist := Trail.ahead_rest h
  rw [methodList, run_seqs_append, run_token h, run_seqs_cons, run_group]
  refine isSome_of_star hlist (fun _ _ => rfl) ?_
  exact isSome_of_methodTail hk (Trail.ahead_rest hlist) hw

/-- **What the pattern of a signature reads can be taken apart.** -/
theorem exists_of_methodParts (hk : ∀ e, (k e).isSome = true) (h : (seqs (methodParts s a)).run t k = some b) :
    ∃ (c : MethodCut) (R : Text), t.place.rest = c.text s a ++ R ∧ c.Spaced ∧ c.Earliest s a R ∧
      k (c.through s a t) = some b := by
  rw [methodParts, run_seqs_cons, run_group] at h
  obtain ⟨hindicator, h⟩ := exists_of_token_eq_some h
  rw [run_seqs_cons] at h
  obtain ⟨g, gs, hgap, hgapBlank, h⟩ := exists_of_plus_eq_some h
  rw [run_seqs_cons, run_group] at h
  obtain ⟨name, hname, -, h, -⟩ := exists_of_star_eq_some h
  rw [run_seqs_cons] at h
  obtain ⟨pad, hpad, hpadBlank, h, -⟩ := exists_of_star_eq_some h
  obtain ⟨list, w, R, hlist, hw, hfirst, h⟩ := exists_of_methodList hk h
  refine ⟨⟨g :: gs, name, pad, list, w⟩, R, ?_, ⟨by simp, hgapBlank, hpadBlank, hw⟩, hfirst, h⟩
  rw [hlist, Trail.remember_place] at hpad
  rw [hpad] at hname
  rw [hname, Trail.remember_place] at hgap
  rw [hindicator, hgap]
  simp [MethodCut.text]

/-- **Where a text can be taken apart, the pattern of the signature reads it.** -/
theorem isSome_of_methodParts (hk : ∀ e, (k e).isSome = true) {c : MethodCut} {R : Text}
    (h : t.place.rest = c.text s a ++ R) (hc : c.Spaced) : ((seqs (methodParts s a)).run t k).isSome = true := by
  simp only [MethodCut.text, List.append_assoc] at h
  have hgap := Trail.ahead_rest h
  have hname := Trail.ahead_rest hgap
  have hpad := Trail.ahead_rest hname
  rw [methodParts, run_seqs_cons, run_group, run_token h, run_seqs_cons]
  refine isSome_of_plus hgap hc.gap_ne hc.gap ?_
  rw [run_seqs_cons, run_group]
  refine isSome_of_star hname (fun _ _ => rfl) ?_
  rw [run_seqs_cons]
  refine isSome_of_star hpad hc.pad ?_
  exact isSome_of_methodList hk (Trail.ahead_rest hpad) hc.space

end

/-! ## Running the delimiter -/

/-- `e` remembers what `s` does and more, under none of these names. -/
def Trail.Keeps (names : List Text) (s e : Trail) : Prop :=
  ∃ new, e.groups = new ++ s.groups ∧ ∀ g ∈ new, g.1 ∉ names

theorem Trail.Keeps.refl (names : List Text) (s : Trail) : s.Keeps names s := ⟨[], by simp⟩

theorem Trail.Keeps.trans {names : List Text} {a b c : Trail} (hab : a.Keeps names b) (hbc : b.Keeps names c) :
    a.Keeps names c := by
  obtain ⟨x, gx, hx⟩ := hab
  obtain ⟨y, gy, hy⟩ := hbc
  refine ⟨y ++ x, by rw [gy, gx, List.append_assoc], fun g hg => ?_⟩
  rcases List.mem_append.1 hg with hg | hg
  · exact hy g hg
  · exact hx g hg

namespace Pattern

/-- A pattern remembers nothing under a name that it avoids. -/
theorem ends_keeps {names : List Text} {p : Pattern} (hp : p.Avoids names) (s e : Trail) (he : e ∈ p.ends s) :
    s.Keeps names e := by
  induction p generalizing s e with
  | empty => exact List.mem_singleton.1 he ▸ .refl names s
  | chars set =>
    simp only [ends] at he
    split at he
    · simp at he
    · split at he
      · rw [List.mem_singleton.1 he]
        exact ⟨[], by simp⟩
      · simp at he
  | anchor a =>
    simp only [ends] at he
    split at he
    · exact List.mem_singleton.1 he ▸ .refl names s
    · simp at he
  | seq a b iha ihb =>
    obtain ⟨m, hm, hme⟩ := List.mem_flatMap.1 he
    exact (iha hp.1 s m hm).trans (ihb hp.2 m e hme)
  | alt a b iha ihb =>
    rcases List.mem_append.1 he with he | he
    · exact iha hp.1 s e he
    · exact ihb hp.2 s e he
  | plus greedy body ih =>
    obtain ⟨m, hm, hme⟩ := List.mem_flatMap.1 he
    split at hme
    · exact List.mem_singleton.1 hme ▸ ih hp s m hm
    · exact (ih hp s m hm).trans (moreEnds_rel (.refl names) .trans (ih hp) _ m e hme)
  | group name body ih =>
    obtain ⟨m, hm, rfl⟩ := List.mem_map.1 he
    obtain ⟨new, hnew, hin⟩ := ih hp.2 s m hm
    refine ⟨(name, ⟨s.place, m.place⟩) :: new, by simp [hnew], fun g hg => ?_⟩
    rcases List.mem_cons.1 hg with rfl | hg
    · exact hp.1
    · exact hin g hg

theorem exists_end {β : Type} {p : Pattern} {s : Trail} {k : Trail → Option β} {b : β} (h : p.run s k = some b) :
    ∃ e ∈ p.ends s, k e = some b := by
  rw [run_eq_findSome?_ends] at h
  exact List.exists_of_findSome?_eq_some h

/-- The delimiter and the blanks around it may be missing. -/
theorem isSome_of_delimiter {β : Type} {s : Trail} {k : Trail → Option β} (p : Pattern) (hk : ∀ e, (k e).isSome = true) :
    ((seqs [star true (chars .blank), repeated true p 0 (some 1)]).run s k).isSome = true := by
  have hrest : s.place.rest = [] ++ s.place.rest := rfl
  rw [run_seqs_cons]
  refine isSome_of_star hrest (by simp) ?_
  rw [seqs, run_optional, Option.orElse_eq_orElse, Option.orElse_eq_or, Option.isSome_or, Trail.ahead_nil, hk, Bool.or_true]

end Pattern

/-! ## Matches -/

/-- A shape of methods whose tokens stand for themselves. -/
structure Shape.LiteralMethod (s : Shape) (a : ArgumentTokens) : Prop where
  kind : s.kind = .method
  arguments : s.arguments = some a
  tokens : s.regex = false
  list : a.regex = false

section

variable {s : Shape} {a : ArgumentTokens} {g : Grammar} {place : Cursor} {m : Match}

@[simp] theorem MethodCut.through_place (c : MethodCut) (s : Shape) (a : ArgumentTokens) (t : Trail) :
    (c.through s a t).place = t.place.ahead (c.text s a) := by
  simp [through, text, Cursor.ahead_append]

variable (hs : s.LiteralMethod a) (hd : ReadableDelimiter s) (hg : Grammar.ofShape s = .ok g)

include hs hd hg in
/-- **A match is a signature that can be taken apart**, with a delimiter and
blanks before it or behind it. The delimiter remembers nothing that hides what
the signature remembers. -/
theorem Grammar.exists_cut (h : g.pattern.matchAt? place = some m) :
    ∃ (c : MethodCut) (R : Text) (t : Trail), place.Reaches t.place ∧ t.place.rest = c.text s a ++ R ∧ c.Spaced ∧
      c.Earliest s a R ∧ (t.place.ahead (c.text s a)).Reaches m.span.last ∧
      (c.through s a t).Keeps methodNames ⟨m.span.last, m.groups⟩ := by
  have hsource := (Grammar.ofShape_ok hg).2.1
  rcases parse_methodSource hs.kind hs.arguments hs.tokens hs.list hd hsource with ⟨-, body, hp⟩ | ⟨-, body, hbody, hp⟩
  · rw [matchAt?, hp, run_seqs_append] at h
    obtain ⟨e, he, h⟩ := exists_end h
    obtain ⟨c, R, hrest, hspaced, hearliest, h⟩ := exists_of_methodParts (fun _ => rfl) h
    cases h
    refine ⟨c, R, e, (ends_extends _ _ _ he).1, hrest, hspaced, hearliest, ?_, .refl _ _⟩
    rw [c.through_place]
    exact .refl _
  · rw [matchAt?, hp, run_seqs_append] at h
    obtain ⟨c, R, hrest, hspaced, hearliest, h⟩ := exists_of_methodParts (fun _ => isSome_of_delimiter _ fun _ => rfl) h
    obtain ⟨e, he, h⟩ := exists_end h
    cases h
    have hgroup : (group "open" body).Avoids methodNames := ⟨by decide, hbody⟩
    have havoids : (seqs [star true (chars .blank), repeated true (group "open" body) 0 (some 1)]).Avoids methodNames :=
      .seqs fun p hp => by
        simp only [List.mem_cons, List.not_mem_nil, or_false] at hp
        rcases hp with rfl | rfl
        · exact .optional trivial
        · exact hgroup.repeated
    refine ⟨c, R, ⟨place, []⟩, .refl _, hrest, hspaced, hearliest, ?_, ends_keeps havoids _ _ he⟩
    have hreach := (ends_extends _ _ _ he).1
    rwa [c.through_place] at hreach

include hs hd hg in
/-- **Where a text can be taken apart, there is a match.** -/
theorem Grammar.isSome_of_cut {c : MethodCut} {R : Text} (h : place.rest = c.text s a ++ R) (hc : c.Spaced) :
    (g.pattern.matchAt? place).isSome = true := by
  have hsource := (Grammar.ofShape_ok hg).2.1
  rcases parse_methodSource hs.kind hs.arguments hs.tokens hs.list hd hsource with ⟨-, body, hp⟩ | ⟨-, body, -, hp⟩
  · have hrest : (⟨place, []⟩ : Trail).place.rest = [] ++ place.rest := rfl
    rw [matchAt?, hp, run_seqs_append, run_seqs_cons, run_optional, Option.orElse_eq_orElse, Option.orElse_eq_or,
      Option.isSome_or, Bool.or_eq_true]
    refine .inr (isSome_of_star hrest (by simp) ?_)
    exact isSome_of_methodParts (fun _ => rfl) h hc
  · rw [matchAt?, hp, run_seqs_append]
    exact isSome_of_methodParts (fun _ => isSome_of_delimiter _ fun _ => rfl) h hc

/-! ## What a match remembers -/

theorem Span.text_ahead {p : Cursor} {r R : Text} (h : p.rest = r ++ R) : (Span.mk p (p.ahead r)).text = r := by
  simp [Span.text, Cursor.textTo, h, Cursor.ahead_rest h]

/-- What is remembered about a signature is not hidden by what comes later. -/
theorem Trail.Keeps.group?_eq {names : List Text} {e : Trail} (h : e.Keeps names ⟨m.span.last, m.groups⟩) {name : Text}
    (hn : name ∈ names) : m.group? name = (e.groups.find? fun g => g.1 == name).map (·.2) := by
  obtain ⟨new, hgroups, hnew⟩ := h
  have hnone : new.find? (fun g => g.1 == name) = none := by
    simp only [List.find?_eq_none, beq_iff_eq]
    intro g hg hname
    exact hnew g hg (hname ▸ hn)
  rw [Match.group?, show m.groups = new ++ e.groups from hgroups, List.find?_append, hnone, Option.none_or]

/-- What a match remembers of its signature. -/
theorem MethodCut.remembered {c : MethodCut} {R : Text} {t : Trail} (hrest : t.place.rest = c.text s a ++ R)
    (h : (c.through s a t).Keeps methodNames ⟨m.span.last, m.groups⟩) :
    (∃ x, m.group? "indicator" = some ⟨t.place, x⟩) ∧ (m.group? "name").map Span.text = some c.name ∧
      (m.group? "args").map Span.text = some c.list ∧
      ∃ x, m.group? "end" = some ⟨x, t.place.ahead (c.text s a)⟩ := by
  simp only [text, List.append_assoc] at hrest
  have hname := Cursor.ahead_rest (Cursor.ahead_rest hrest)
  have hlist := Cursor.ahead_rest (Cursor.ahead_rest (Cursor.ahead_rest hname))
  refine ⟨⟨_, h.group?_eq (by decide)⟩, ?_, ?_, ?_⟩
  · rw [h.group?_eq (by decide)]
    exact congrArg some (Span.text_ahead hname)
  · rw [h.group?_eq (by decide)]
    exact congrArg some (Span.text_ahead hlist)
  · rw [← c.through_place]
    exact ⟨_, h.group?_eq (by decide)⟩

/-- A match whose signature stands between `head` and `tail` and is taken
apart as `c` says. -/
structure Grammar.Recognised (g : Grammar) (a : ArgumentTokens) (t : Text) (m : Match) (head : Text) (c : MethodCut)
    (tail : Text) : Prop where
  text : t = head ++ (c.text g.shape a ++ tail)
  spaced : c.Spaced
  earliest : c.Earliest g.shape a tail
  /-- The bounds that a scan takes from the match. -/
  signature : ∃ s, g.signature? t m = some s ∧ s.start = head.size ∧ s.stop = (head ++ c.text g.shape a).size ∧
    s.text = c.text g.shape a
  within : m.span.start ≤ head.size ∧ (head ++ c.text g.shape a).size ≤ m.span.stop
  name : ∀ file, g.nameOf file m = Text.trim c.name
  list : g.argumentPieces m = Text.splitOn a.separator c.list

include hs hd hg in
/-- **Every match is recognised.** -/
theorem Grammar.exists_recognised {t : Text} (hm : m ∈ g.pattern.allMatches t) :
    ∃ head c tail, g.Recognised a t m head c tail := by
  obtain ⟨c, R, e, hreach, hrest, hspaced, hearliest, hlast, hkeeps⟩ := g.exists_cut hs hd hg (matchAt?_of_mem_allMatches hm)
  obtain ⟨hstart, -, -⟩ := (allMatches_foundFrom g.pattern t).1 m hm
  obtain ⟨head, ht, hoffset, -⟩ := Cursor.cut?_of_reaches (hstart.trans hreach)
  obtain ⟨hshape, -, hsplitter⟩ := Grammar.ofShape_ok hg
  subst hshape
  obtain ⟨⟨x, hindicator⟩, hname, hlist, y, hend⟩ := c.remembered hrest hkeeps
  refine ⟨head, c, R, by rw [ht, hrest], hspaced, hearliest, ⟨⟨e.place, e.place.ahead (c.text g.shape a)⟩, ?_, hoffset, ?_,
    Span.text_ahead hrest⟩, ⟨?_, ?_⟩, fun file => ?_, ?_⟩
  · simp only [signature?, hs.kind, hindicator, hend, Option.bind_some, Option.map_some]
  · simp [Span.stop, Cursor.ahead_offset, hoffset]
  · rw [← hoffset]
    exact hreach.offset_le
  · rw [Text.size_append, ← hoffset, ← Cursor.ahead_offset]
    exact hlast.offset_le
  · simp only [nameOf, hs.kind, hname, Option.getD_some]
  · obtain ⟨span, hspan, htext⟩ := Option.map_eq_some_iff.1 hlist
    rw [hs.arguments, splitterOf, if_neg (by simp [hs.list])] at hsplitter
    have hliteral : g.splitter = some (.literal a.separator) := (Except.ok.inj hsplitter).symm
    simp only [argumentPieces, hs.kind, hspan, splitArguments, hliteral, htext]

/-- A text in which the methods are those that the tokens mark. -/
structure Grammar.RecognisesMethods (g : Grammar) (a : ArgumentTokens) (t : Text) : Prop where
  /-- A match is a signature, taken apart at its tokens. -/
  matched : ∀ m ∈ g.pattern.allMatches t, ∃ head c tail, g.Recognised a t m head c tail
  /-- A candidate has the place, the name and the arguments of its signature. -/
  candidates : ∀ file change history, ∀ d ∈ (scanWith g file t change history).1.candidates,
    ∃ m ∈ g.pattern.allMatches t, ∃ head c tail, g.Recognised a t m head c tail ∧
      d.start = head.size ∧ d.stop = (head ++ c.text g.shape a).size ∧ d.text = c.text g.shape a ∧
      d.name = Text.trim c.name ∧ d.arguments = argumentNames a.ignore (Text.splitOn a.separator c.list) ∧
      d.line = 1 + Text.feeds head
  /-- Where the text can be taken apart, it lies in a match. -/
  covered : ∀ head (c : MethodCut) tail, t = head ++ (c.text g.shape a ++ tail) → c.Spaced →
    ∃ m ∈ g.pattern.allMatches t, m.span.start ≤ head.size ∧ head.size < m.span.stop

include hs hd hg in
/-- No match is empty: there is a blank behind the indicator. -/
theorem Grammar.start_lt_stop (h : g.pattern.matchAt? place = some m) : m.span.start < m.span.stop := by
  obtain ⟨c, R, e, hreach, -, hspaced, -, hlast, -⟩ := g.exists_cut hs hd hg h
  have hstart := hreach.offset_le
  have hstop := hlast.offset_le
  have hgap := Text.size_pos_of_ne_nil hspaced.gap_ne
  rw [Cursor.ahead_offset] at hstop
  simp only [MethodCut.text, Text.size_append] at hstop
  simp only [Span.start, Span.stop, (matchAt?_within h).1]
  omega

/-- **Methods are recognised by their literal tokens**, whatever these are, if
the delimiter above or below them can be read where it stands. -/
theorem methods_recognised (hs : s.LiteralMethod a) (hd : ReadableDelimiter s) (hg : Grammar.ofShape s = .ok g)
    (t : Text) : g.RecognisesMethods a t := by
  obtain ⟨rfl, -, -⟩ := Grammar.ofShape_ok hg
  refine ⟨fun m hm => g.exists_recognised hs hd hg hm, fun file change history d hd' => ?_, fun head c tail ht hc => ?_⟩
  · obtain ⟨m, span, hmem, -, -, -, -, rfl⟩ := mem_candidates hd'
    obtain ⟨hm, hsignature⟩ := Grammar.mem_signed.1 hmem
    obtain ⟨head, c, tail, h⟩ := g.exists_recognised hs hd hg hm
    obtain ⟨span', hsignature', hstart, hstop, htext⟩ := h.signature
    obtain rfl : span = span' := Option.some.inj (hsignature.symm.trans hsignature')
    refine ⟨m, hm, head, c, tail, h, hstart, hstop, htext, h.name file, ?_, ?_⟩
    · simp only [Grammar.candidateOf, Grammar.ignoredArguments, hs.arguments, h.list, Option.map_some, Option.getD_some]
    · simp only [Grammar.candidateOf, hstart]
      rw [h.text, Text.lineOf_append]
  · have hplaces : ∀ place : Cursor, (∃ (c : MethodCut) (R : Text), place.rest = c.text g.shape a ++ R ∧ c.Spaced) →
        (g.pattern.matchAt? place).isSome = true := by
      intro place h
      obtain ⟨c, R, hrest, hspaced⟩ := h
      exact g.isSome_of_cut hs hd hg hrest hspaced
    exact exists_mem_allMatches (Q := fun rest => ∃ (c : MethodCut) (R : Text), rest = c.text g.shape a ++ R ∧ c.Spaced)
      hplaces (fun _ _ h => g.start_lt_stop hs hd hg h) ht ⟨c, tail, rfl, hc⟩

end

namespace LastLine

def tokens : ArgumentTokens := ⟨"(", ")", ",", false, []⟩

/-- Methods between a keyword and the end of a line, with comments above them
that end in a line of their own. -/
def shape (delimiter : Text) : Shape :=
  { kind := .method, extension := "rb", indicator := "def", ending := "\n", ancestry := none
    docOpen := "# begin", docClose := "# end", openPattern := "# begin", closePattern := delimiter
    arguments := some tokens, before := true, withinScope := false, regex := false, ignore := [] }

def source : Text := "def f(x)\n  x\nend\n"

/-- The delimiter, with blanks for reading. -/
def plain : Text := "(?x) \\# \\s end"

/-- The same with a comment on it. -/
def commented : Text := "(?x) \\# \\s end # the last line of a block"

def delimiter : Pattern := seqs [literal '#', chars .blank, literal 'e', literal 'n', literal 'd']

def grammar : Grammar :=
  ⟨shape plain, seqs ([repeated true (group "close" delimiter) 0 (some 1), star true (chars .blank)] ++
    methodParts (shape plain) tokens), some (.literal ",")⟩

/-- The comment takes in all that follows up to the end token, and the group
of the delimiter closes behind it. -/
def swallowed : Grammar := ⟨shape commented, group "close" delimiter, some (.literal ",")⟩

theorem literal_tokens (delimiter : Text) : (shape delimiter).LiteralMethod tokens := ⟨rfl, rfl, rfl, rfl⟩

set_option maxRecDepth 100000 in
theorem parse_plain : parse plain = .ok delimiter := eq_ok_of_toOption (by decide)

set_option maxRecDepth 100000 in
theorem parse_commented : parse commented = .ok delimiter := eq_ok_of_toOption (by decide)

set_option maxRecDepth 100000 in
theorem readable : ReadableDelimiter (shape plain) := by
  refine ⟨by simp [shape], fun _ => ⟨⟨delimiter, parse_plain⟩, delimiter, ?_⟩⟩
  exact eq_ok_of_toOption (by decide)

set_option maxRecDepth 100000 in
theorem compiled : Grammar.ofShape (shape plain) = .ok grammar := by
  have hparse : parse (shape plain).source = .ok grammar.pattern := eq_ok_of_toOption (by decide)
  simp only [Grammar.ofShape, hparse]
  rfl

set_option maxRecDepth 100000 in
theorem compiled_commented : Grammar.ofShape (shape commented) = .ok swallowed := by
  have hparse : parse (shape commented).source = .ok swallowed.pattern := eq_ok_of_toOption (by decide)
  simp only [Grammar.ofShape, hparse]
  rfl

theorem methods_recognised_plain : (shape plain).LiteralMethod tokens ∧ ReadableDelimiter (shape plain) ∧
    Grammar.ofShape (shape plain) = .ok grammar ∧ (grammar.pattern.allMatches source).length = 1 ∧
    grammar.RecognisesMethods tokens source :=
  ⟨literal_tokens plain, readable, compiled, by decide +kernel,
    methods_recognised (literal_tokens plain) readable compiled source⟩

set_option maxRecDepth 100000 in
/-- With the comment, the delimiter can still be read alone, but the method is
not found. -/
theorem comment_hides : (shape commented).LiteralMethod tokens ∧ (∃ q, parse commented = .ok q) ∧
    Grammar.ofShape (shape commented) = .ok swallowed ∧ ¬swallowed.RecognisesMethods tokens source := by
  refine ⟨literal_tokens commented, ⟨delimiter, parse_commented⟩, compiled_commented, fun h => ?_⟩
  have hnone : swallowed.pattern.allMatches source = [] := by
    rw [← List.isEmpty_iff]
    decide +kernel
  have hcut : source = [] ++ (MethodCut.text ⟨[' '], ['f'], [], ['x'], []⟩ (shape commented) tokens ++ "  x\nend\n".toList) := by
    decide
  obtain ⟨m, hm, -⟩ := h.covered _ _ _ hcut ⟨by decide, by decide, by decide, by decide⟩
  rw [hnone] at hm
  cases hm

end LastLine

end DocScribe
