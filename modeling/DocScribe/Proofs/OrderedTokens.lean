/-
Tokens in their order.

The signature of a construct is written as its indicator, what stands between,
and its end token. Tokens that can be read alone stay in the groups that are put
around them, so the group of the indicator is read before that of the end token
(`Pattern.parse_source`), and in every match the indicator starts before the end
token ends (`Grammar.ReadAlone.orderedIn`). What is said of grammars whose groups
are in order therefore holds of all of these.
-/
import DocScribe.Proofs.LiteralMethods

namespace DocScribe

open Pattern

/-! ## What a match remembers -/

/-- The parts of a signature: its indicator and a blank, and later its end
token. No other group behind them has the name of either. -/
inductive Pattern.InOrder : List Pattern → Prop
  | mk {I E : Pattern} {M : List Pattern} (hM : ∀ q ∈ M, q.Avoids ["indicator"]) (hE : E.Avoids ["indicator", "end"]) :
      InOrder (group "indicator" I :: plus true (chars .blank) :: (M ++ [group "end" E]))

theorem Trail.Keeps.mono {names more : List Text} {s e : Trail} (h : s.Keeps more e) (hsub : ∀ n ∈ names, n ∈ more) :
    s.Keeps names e := by
  obtain ⟨new, hnew, hin⟩ := h
  exact ⟨new, hnew, fun g hg hname => hin g hg (hsub g.1 hname)⟩

/-- Remembering something under another name. -/
theorem Trail.Keeps.remember {names : List Text} {name : Text} (hname : name ∉ names) (s : Trail) (first : Cursor) :
    s.Keeps names (s.remember name first) :=
  ⟨[(name, ⟨first, s.place⟩)], rfl, by simpa using hname⟩

section

variable {m : Match} {place : Cursor}

/-- A blank stands behind the indicator, and the end token comes later. -/
theorem Pattern.InOrder.group?_eq {X ps Z : List Pattern} (hps : InOrder ps)
    (hZ : (seqs Z).Avoids ["indicator", "end"]) (h : (seqs (X ++ (ps ++ Z))).matchAt? place = some m) :
    ∃ indicator ending, m.group? "indicator" = some indicator ∧ m.group? "end" = some ending ∧
      indicator.start < ending.stop := by
  obtain ⟨hM, hE⟩ := hps
  rw [matchAt?, run_seqs_append] at h
  obtain ⟨opened, -, h⟩ := exists_end h
  rw [List.cons_append, run_seqs_cons, run_group] at h
  obtain ⟨closed, hclosed, h⟩ := exists_end h
  rw [List.cons_append, run_seqs_cons] at h
  obtain ⟨c, gap, hgap, -, h⟩ := exists_of_plus_eq_some h
  rw [List.append_assoc, run_seqs_append] at h
  obtain ⟨between, hbetween, h⟩ := exists_end h
  rw [List.singleton_append, run_seqs_cons, run_group] at h
  obtain ⟨ended, hended, h⟩ := exists_end h
  obtain ⟨last, hlast, h⟩ := exists_end h
  cases h
  have hsub : ∀ n ∈ (["indicator"] : List Text), n ∈ (["indicator", "end"] : List Text) := by simp
  have hafter : (ended.remember "end" between.place).Keeps ["indicator", "end"] last := ends_keeps hZ _ _ hlast
  have hwhole : (closed.remember "indicator" opened.place).Keeps ["indicator"] last := by
    have hstart : ((closed.remember "indicator" opened.place).ahead (c :: gap)).Keeps ["indicator"] between :=
      ends_keeps (.seqs hM) _ _ hbetween
    have hmiddle : between.Keeps ["indicator"] (ended.remember "end" between.place) :=
      ((ends_keeps hE _ _ hended).mono hsub).trans (.remember (by decide) _ _)
    exact (hstart.trans hmiddle).trans (hafter.mono hsub)
  refine ⟨⟨opened.place, closed.place⟩, ⟨between.place, ended.place⟩, ?_, ?_, ?_⟩
  · exact (hwhole.group?_eq (m := ⟨⟨place, last.place⟩, last.groups⟩) (by simp)).trans rfl
  · exact (hafter.group?_eq (m := ⟨⟨place, last.place⟩, last.groups⟩) (by simp)).trans rfl
  · have h1 := (ends_extends _ _ _ hclosed).1.offset_le
    have h2 := (ends_extends _ _ _ hbetween).1.offset_le
    have h3 := (ends_extends _ _ _ hended).1.offset_le
    have hpos := c.utf8Size_pos
    simp only [Trail.ahead_place, Trail.remember_place, Cursor.ahead_offset, Text.size_cons] at h2
    simp only [Span.start, Span.stop]
    omega

/-- Where no group is an indicator, there is nothing to be in order. -/
theorem Grammar.orderedIn_of_avoids {g : Grammar} (h : g.pattern.Avoids ["indicator"]) (t : Text) : g.OrderedIn t := by
  intro m hm indicator hindicator
  have hmatch := matchAt?_of_mem_allMatches hm
  generalize m.span.first = place at hmatch
  rw [matchAt?] at hmatch
  obtain ⟨e, he, hmatch⟩ := exists_end hmatch
  cases hmatch
  rw [(ends_keeps h _ _ he).group?_eq (m := ⟨⟨place, e.place⟩, e.groups⟩) (by simp)] at hindicator
  cases hindicator

end

/-! ## Reading a signature -/

namespace Pattern

/-- A token that can be read alone and in parentheses, so that it does not end
in a comment. -/
structure ReadableToken (t : Text) : Prop where
  alone : ∃ q, parse t = .ok q
  parenthesised : ∃ q, parse (parenthesised t) = .ok q

theorem writes_word : Writes ['\\', 'S', '+', '?'] [] [plus false (chars (.compl .blank))] := by
  have hone : Writes ['\\', 'S'] [] [chars (.compl .blank)] :=
    .token (k := .atom (.set (.compl .blank))) (fun _ => rfl) fun _ _ => rfl
  rw [plus_eq_repeated]
  exact hone.times (c := '+') (u := ['?']) (by decide) fun _ _ => rfl

section

variable {avoided names : List Text} {t u : Text} {ps : List Pattern}

/-- Reading `t` adds parts in which no group has one of some names, all of which
were taken before. -/
def Adds (avoided : List Text) (t : Text) : Prop :=
  ∀ (r : Reader) (K : Text) (p : Pattern), r.flags = .source → (∀ n ∈ avoided, n ∈ r.names) → K.head? ≠ some '?' →
    r.readAll (t ++ K) = .ok p → ∃ ps names, (∀ q ∈ ps, q.Avoids avoided) ∧ (∀ n ∈ r.names, n ∈ names) ∧
      (r.grown names ps).readAll K = .ok p

theorem Adds.of_writes (ht : Writes t names ps) (hps : ∀ q ∈ ps, q.Avoids avoided) : Adds avoided t :=
  fun r K p hr _ hK h => ⟨ps, names ++ r.names, hps, fun _ hn => List.mem_append_right names hn, ht r hr K p hK h⟩

theorem Adds.append (ht : Adds avoided t) (hu : Adds avoided u) (hhead : u.head? ≠ some '?') :
    Adds avoided (t ++ u) := by
  intro r K p hr htaken hK h
  rw [List.append_assoc] at h
  obtain ⟨ps, names, hps, hnames, h⟩ := ht r (u ++ K) p hr htaken (Reader.head?_append_ne hhead hK) h
  obtain ⟨qs, more, hqs, hmore, h⟩ := hu (r.grown names ps) K p hr (fun n hn => hnames n (htaken n hn)) hK h
  rw [Reader.grown_grown] at h
  refine ⟨ps ++ qs, more, fun q hq => ?_, fun n hn => hmore n (hnames n hn), h⟩
  exact (List.mem_append.1 hq).elim (hps q) (hqs q)

/-- A group that may be missing. -/
theorem Adds.optional {name : Text} (hname : ∀ K, groupName (name ++ '>' :: K) = .ok (name, K)) (ht : ReadableToken t)
    (hnew : name ∉ avoided) : Adds avoided (groupOpening name ++ (t ++ [')', '?'])) := by
  intro r K p hr htaken hK h
  obtain ⟨q, hq⟩ := ht.alone
  obtain ⟨body, names, havoids, hnames, h⟩ := readAll_delimiter (K := K) hname hq (fun _ => ht.parenthesised) hr hK
    (by simpa using h)
  have hgroup : (group name body).Avoids avoided :=
    ⟨hnew, havoids.mono fun n hn => List.mem_cons_of_mem name (htaken n hn)⟩
  exact ⟨_, names, List.forall_mem_singleton.2 hgroup.repeated, fun n hn => hnames n (List.mem_cons_of_mem name hn), h⟩

theorem avoids_literals (t : Text) : ∀ q ∈ t.map literal, q.Avoids avoided := by
  intro q hq
  obtain ⟨c, -, rfl⟩ := List.mem_map.1 hq
  trivial

theorem avoids_repeated (b : Bool) (set : CharSet) (min : Nat) :
    ∀ q ∈ [repeated b (chars set) min none], q.Avoids avoided :=
  List.forall_mem_singleton.2 (Avoids.repeated (p := chars set) trivial)

theorem Adds.quote (t : Text) : Adds avoided (Pattern.quote t) := .of_writes (writes_quote t) (avoids_literals t)

theorem Adds.blanks : Adds avoided ['\\', 's', '*'] := .of_writes writes_blanks (avoids_repeated true .blank 0)

theorem Adds.anything (name : Text) (hname : ∀ K, groupName (name ++ '>' :: K) = .ok (name, K)) (hnew : name ∉ avoided) :
    Adds avoided (groupOpening name ++ (['.', '*', '?'] ++ [')'])) :=
  .of_writes (writes_anything.group (by simp) hname)
    (List.forall_mem_singleton.2 ⟨hnew, .seqs (avoids_repeated false .any 0)⟩)

theorem Adds.word (hnew : "name".toList ∉ avoided) :
    Adds avoided (groupOpening "name" ++ (['\\', 'S', '+', '?'] ++ [')'])) :=
  .of_writes (writes_word.group (by simp) fun _ => rfl)
    (List.forall_mem_singleton.2 ⟨hnew, .seqs (avoids_repeated false (.compl .blank) 1)⟩)

/-- What a class is derived from, if that is given. -/
theorem Adds.ancestry {regex : Bool} (ht : regex = true → ReadableToken (t ++ ['.', '*', '?']))
    (hnew : "end_name".toList ∉ avoided) :
    Adds avoided (groupOpening "end_name" ++ (Shape.token t regex ++ ['.', '*', '?', ')', '?'])) := by
  have hname : ∀ K, groupName (("end_name" : Text) ++ '>' :: K) = .ok ("end_name", K) := fun _ => rfl
  cases regex with
  | true =>
    have hoptional := Adds.optional hname (ht rfl) hnew
    simpa [Shape.token] using hoptional
  | false =>
    have hbody := (writes_quote t).append writes_anything (by simp)
    have hgroup := hbody.optionalGroup (Reader.head?_append_ne (quote_head? t) (by simp)) hname
    have hparts : ∀ q ∈ t.map literal ++ [star false (chars .any)], q.Avoids avoided :=
      List.forall_mem_append.2 ⟨avoids_literals t, avoids_repeated false .any 0⟩
    have hadds : Adds avoided _ :=
      .of_writes hgroup (List.forall_mem_singleton.2 (Avoids.repeated ⟨hnew, .seqs hparts⟩))
    simpa [Shape.token] using hadds

/-- A token stays in the group that is put around it: it is quoted, or it can be
read alone. -/
theorem readAll_token_group {regex : Bool} (ht : regex = true → ReadableToken t) {r : Reader} {name K : Text}
    {p : Pattern} (hname : ∀ K, groupName (name ++ '>' :: K) = .ok (name, K)) (hr : r.flags = .source)
    (hK : K.head? ≠ some '?') (h : r.readAll (groupOpening name ++ (Shape.token t regex ++ ')' :: K)) = .ok p) :
    ∃ body names, body.Avoids (name :: r.names) ∧ (∀ n ∈ name :: r.names, n ∈ names) ∧
      (r.grown names [group name body]).readAll K = .ok p := by
  cases regex with
  | true =>
    obtain ⟨q, hq⟩ := (ht rfl).alone
    exact readAll_grouped hname hq (fun _ => (ht rfl).parenthesised) hr h
  | false =>
    have hgroup := (writes_quote t).group (quote_head? t) hname r hr K p hK (by simpa [Shape.token] using h)
    exact ⟨_, name :: r.names, .seqs (avoids_literals t), fun _ hn => hn, hgroup⟩

end
end Pattern

namespace Shape

/-- What is written between the blanks behind the indicator and the group of the
end token. -/
def middle (s : Shape) : Text :=
  match s.arguments with
  | some a =>
    "(?P<name>.*?)\\s*" ++ token a.opening a.regex ++ "(?P<args>.*?)" ++ token a.closing a.regex ++ "\\s*"
  | none =>
    "(?P<name>\\S+?)\\s*" ++
      match s.ancestry with
      | some t => "(?P<end_name>" ++ token t s.regex ++ ".*?)?"
      | none => []

theorem signature_eq (s : Shape) :
    s.signature = groupOpening "indicator" ++ (token s.indicator s.regex ++ ')' :: (['\\', 's', '+'] ++ (s.middle ++
      (groupOpening "end" ++ (token s.ending s.regex ++ [')']))))) := by
  unfold signature middle
  cases s.arguments with
  | some a => simp [groupOpening]
  | none => cases s.ancestry <;> simp [groupOpening]

theorem middle_head? (s : Shape) : s.middle.head? = some '(' := by
  unfold middle
  cases s.arguments with
  | some a => rfl
  | none => cases s.ancestry <;> rfl

/-- A construct whose tokens are read alone: those that are patterns can be, the
tokens around its arguments are quoted, and its delimiter can be read where it
stands. -/
structure ReadAlone (s : Shape) : Prop where
  construct : s.kind ≠ .header
  indicator : s.regex = true → ReadableToken s.indicator
  ending : s.regex = true → ReadableToken s.ending
  ancestry : s.regex = true → ∀ t ∈ s.ancestry, ReadableToken (t ++ ['.', '*', '?'])
  arguments : ∀ a ∈ s.arguments, a.regex = false
  delimiter : ReadableDelimiter s

end Shape

/-- Methods with literal tokens are such constructs. -/
theorem Shape.LiteralMethod.readAlone {s : Shape} {a : ArgumentTokens} (hs : s.LiteralMethod a) (hd : ReadableDelimiter s) :
    s.ReadAlone := by
  refine ⟨by simp [hs.kind], ?_, ?_, ?_, fun b hb => ?_, hd⟩
  · simp [hs.tokens]
  · simp [hs.tokens]
  · simp [hs.tokens]
  · obtain rfl := Option.some.inj (hs.arguments.symm.trans hb)
    exact hs.list

namespace Shape.ReadAlone

variable {s : Shape} (hs : s.ReadAlone)

include hs

theorem adds_middle : Adds ["indicator"] s.middle := by
  cases ha : s.arguments with
  | some a =>
    have hclosing : Adds ["indicator"] (quote a.closing ++ ['\\', 's', '*']) := (Adds.quote _).append .blanks (by simp)
    have hlist := (Adds.anything "args" (fun _ => rfl) (by decide)).append hclosing
      (Reader.head?_append_ne (quote_head? _) (by simp))
    have hopening := (Adds.quote a.opening).append hlist (by simp [groupOpening])
    have hpad := Adds.blanks.append hopening (Reader.head?_append_ne (quote_head? _) (by simp [groupOpening]))
    have hname := (Adds.anything "name" (fun _ => rfl) (by decide)).append hpad (by simp)
    simpa [Shape.middle, ha, hs.arguments a ha, Shape.token, groupOpening] using hname
  | none =>
    have hname : Adds ["indicator"] _ := (Adds.word (by decide)).append .blanks (by simp)
    cases ht : s.ancestry with
    | none => simpa [Shape.middle, ha, ht, groupOpening] using hname
    | some t =>
      have hboth := hname.append (Adds.ancestry (fun hr => hs.ancestry hr t ht) (by decide)) (by simp [groupOpening])
      simpa [Shape.middle, ha, ht, groupOpening] using hboth

theorem readAll_signature {r : Reader} {K : Text} {p : Pattern} (hr : r.flags = .source) (hK : K.head? ≠ some '?')
    (h : r.readAll (s.signature ++ K) = .ok p) :
    ∃ names ps, (InOrder ps ∧ ∀ n ∈ ["indicator".toList, "end".toList], n ∈ names) ∧
      (r.grown names ps).readAll K = .ok p := by
  rw [s.signature_eq] at h
  simp only [List.append_assoc, List.cons_append, List.nil_append] at h
  obtain ⟨I, first, -, hfirst, h⟩ := readAll_token_group hs.indicator (fun _ => rfl) hr (by simp) h
  have hhead : (s.middle ++ (groupOpening "end" ++ (Shape.token s.ending s.regex ++ ')' :: K))).head? ≠ some '?' := by
    rw [List.head?_append, s.middle_head?]
    simp
  replace h := writes_someBlanks (r.grown first [group "indicator" I]) hr _ p hhead h
  rw [Reader.grown_add] at h
  obtain ⟨M, second, hM, hsecond, h⟩ := hs.adds_middle (r.grown first _) _ p hr
    (List.forall_mem_singleton.2 (hfirst _ List.mem_cons_self)) (by simp [groupOpening]) h
  rw [Reader.grown_grown] at h
  obtain ⟨E, third, hE, hthird, h⟩ := readAll_token_group hs.ending (fun _ => rfl) (r := r.grown second _) hr hK h
  rw [Reader.grown_grown] at h
  have hindicator : "indicator".toList ∈ second := hsecond _ (hfirst _ List.mem_cons_self)
  refine ⟨third, _, ⟨.mk (I := I) hM (hE.mono ?_), ?_⟩, h⟩
  · exact List.forall_mem_cons.2 ⟨List.mem_cons_of_mem _ hindicator, List.forall_mem_singleton.2 List.mem_cons_self⟩
  · exact List.forall_mem_cons.2 ⟨hthird _ (List.mem_cons_of_mem _ hindicator),
      List.forall_mem_singleton.2 (hthird _ List.mem_cons_self)⟩

/-- **The source of a construct whose tokens are read alone** writes the parts of
its signature, with a delimiter above or below that has no part in them. -/
theorem parse_source {p : Pattern} (h : parse s.source = .ok p) :
    ∃ X ps Z, p = seqs (X ++ (ps ++ Z)) ∧ InOrder ps ∧ (seqs Z).Avoids ["indicator", "end"] := by
  rcases parse_around hs.construct hs.delimiter (fun _ _ => hs.readAll_signature) h with
    ⟨-, names, ps, body, ⟨hps, -⟩, hp⟩ | ⟨-, names, ps, body, ⟨hps, hnames⟩, havoids, hp⟩
  · exact ⟨_, ps, [], by rw [List.append_nil]; exact hp, hps, trivial⟩
  · have hopen : (group "open" body).Avoids ["indicator", "end"] :=
      ⟨by decide, havoids.mono fun n hn => List.mem_cons_of_mem _ (hnames n hn)⟩
    refine ⟨[], ps, _, hp, hps, .seqs (List.forall_mem_cons.2 ⟨?_, List.forall_mem_singleton.2 hopen.repeated⟩)⟩
    exact avoids_repeated true .blank 0 _ List.mem_cons_self

end Shape.ReadAlone

/-! ## Grammars -/

/-- A grammar whose tokens are read alone. In that of file headers there is no
indicator. -/
inductive Grammar.ReadAlone (g : Grammar) : Prop
  | construct (hs : g.shape.ReadAlone) (hg : Grammar.ofShape g.shape = .ok g)
  | header (havoids : g.pattern.Avoids ["indicator"])

/-- **The groups of a grammar whose tokens are read alone are in order** in every
text. -/
theorem Grammar.ReadAlone.orderedIn {g : Grammar} (h : g.ReadAlone) (t : Text) : g.OrderedIn t := by
  cases h with
  | header havoids => exact orderedIn_of_avoids havoids t
  | construct hs hg =>
    obtain ⟨X, ps, Z, hpattern, hps, hZ⟩ := hs.parse_source (Grammar.ofShape_ok hg).2.1
    intro m hm indicator hindicator ending hending
    have hmatch := matchAt?_of_mem_allMatches hm
    rw [hpattern] at hmatch
    obtain ⟨i, e, hi, he, hlt⟩ := hps.group?_eq hZ hmatch
    obtain rfl := Option.some.inj (hi.symm.trans hindicator)
    obtain rfl := Option.some.inj (he.symm.trans hending)
    exact hlt

/-- So are those of every plan of a catalog with such tokens. -/
theorem Catalog.orderedIn_of_readAlone {formats : List Format} {file : Path} {plan : FormatPlan}
    (hplan : (ofFormats formats).planFor file = .ok plan)
    (h : ∀ k ∈ plan.kinds, k.grammar.shape.ReadAlone ∨ k.grammar.pattern.Avoids ["indicator"]) :
    ∀ k ∈ plan.kinds, ∀ t, k.grammar.OrderedIn t := by
  intro k hk
  have hgrammar : k.grammar.ReadAlone := (h k hk).elim (.construct · (ofShape_of_mem hplan hk)) .header
  exact hgrammar.orderedIn

end DocScribe
