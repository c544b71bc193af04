/-
The pattern that the source of a method shape with literal tokens writes.

The source is put together from pieces that each write some parts of a
pattern, whatever is read before and after them (`Writes`): quoted tokens,
blanks, named groups. The delimiter of the documentation is a piece that the
format gives, and it stays in its group when it can be read alone and does
not end in a comment (`readAll_grouped`). Where it stands, above the signature
or below it, is the same for every construct (`parse_around`).
-/
import DocScribe.Proofs.PatternReading
import DocScribe.Scan.Shape

namespace DocScribe
namespace Pattern

/-- The switches that a source is read under: the dot matches line feeds. -/
def Flags.source : Flags := { dotAll := true }

@[simp] theorem Flags.source_skip (t : Text) : Flags.source.skip t = t := rfl

namespace Reader

/-- More parts read, with groups of more names among them. -/
def add (r : Reader) (names : List Text) (ps : List Pattern) : Reader :=
  { r with names := names ++ r.names, frame := { r.frame with parts := (ps.map some).reverse ++ r.frame.parts } }

/-- A named group opened. -/
def enter (r : Reader) (name : Text) : Reader :=
  ⟨r.flags, ⟨some name, r.flags, [], []⟩, r.frame :: r.enclosing, name :: r.names⟩

@[simp] theorem add_flags (r : Reader) (names : List Text) (ps : List Pattern) : (r.add names ps).flags = r.flags := rfl

theorem add_add (r : Reader) (names more : List Text) (ps qs : List Pattern) :
    (r.add names ps).add more qs = r.add (more ++ names) (ps ++ qs) := by
  simp [add]

theorem add_names (r : Reader) (names other : List Text) (ps : List Pattern) :
    { r.add names ps with names := other } = { r with names := other }.add [] ps := rfl

/-- More parts read, with these names taken by now. -/
def grown (r : Reader) (names : List Text) (ps : List Pattern) : Reader := { r with names }.add [] ps

theorem grown_grown (r : Reader) (names more : List Text) (ps qs : List Pattern) :
    (r.grown names ps).grown more qs = r.grown more (ps ++ qs) := by
  rw [grown, grown, add_names, add_add]
  rfl

theorem grown_add (r : Reader) (names : List Text) (ps qs : List Pattern) :
    (r.grown names ps).add [] qs = r.grown names (ps ++ qs) := by
  rw [grown, add_add]
  rfl

/-- Reading `t` leads from `r` to `R`, if all the rest can be read. A question
mark behind `t` might still belong to it. -/
def Leads (r : Reader) (t : Text) (R : Reader) : Prop :=
  ∀ K p, K.head? ≠ some '?' → r.readAll (t ++ K) = .ok p → R.readAll K = .ok p

variable {r r' R : Reader} {t u : Text}

theorem head?_append_ne (hu : u.head? ≠ some '?') {K : Text} (hK : K.head? ≠ some '?') :
    (u ++ K).head? ≠ some '?' := by
  cases u with
  | nil => exact hK
  | cons c u => exact hu

theorem Leads.refl (r : Reader) : Leads r [] r := fun _ _ _ h => h

theorem Leads.append (ht : Leads r t r') (hu : Leads r' u R) (hhead : u.head? ≠ some '?') : Leads r (t ++ u) R := by
  intro K p hK h
  rw [List.append_assoc] at h
  exact hu K p hK (ht (u ++ K) p (head?_append_ne hhead hK) h)

/-- One token, and what it does to the open groups. -/
theorem Leads.token {c : Char} {k : Token} (hr : r.flags = .source)
    (hk : ∀ K, K.head? ≠ some '?' → token .source c (t ++ K) = .ok (k, K)) (hR : ∀ r', r.act k = .ok r' → r' = R) :
    Leads r (c :: t) R := by
  intro K p hK h
  have hskip : r.flags.skip (c :: (t ++ K)) = c :: (t ++ K) := by rw [hr, Flags.source_skip]
  obtain ⟨k', v, r', hk', hact, hread⟩ := readAll_token_ok hskip h
  rw [hr, hk K hK] at hk'
  cases hk'
  rw [← hR r' hact]
  exact hread

end Reader

/-! ## Pieces of a source -/

/-- `t` writes the parts `ps`, with groups of these names among them. -/
def Writes (t : Text) (names : List Text) (ps : List Pattern) : Prop :=
  ∀ r : Reader, r.flags = .source → r.Leads t (r.add names ps)

section

variable {t u : Text} {names more : List Text} {ps qs : List Pattern} {p : Pattern} {r : Reader}

theorem Writes.append (ht : Writes t names ps) (hu : Writes u more qs) (hhead : u.head? ≠ some '?') :
    Writes (t ++ u) (more ++ names) (ps ++ qs) := by
  intro r hr
  rw [← Reader.add_add]
  exact (ht r hr).append (hu _ hr) hhead

theorem Writes.token {c : Char} {k : Token} (hk : ∀ K, token .source c (t ++ K) = .ok (k, K))
    (hr : ∀ r : Reader, r.flags = .source → r.act k = .ok (r.push p)) : Writes (c :: t) [] [p] :=
  fun r hf => .token hf (fun K _ => hk K) fun r' h => by
    rw [hr r hf] at h
    cases h
    rfl

/-- A repetition of the last part. -/
theorem Reader.leads_times {c : Char} {greedy : Bool} {min : Nat} {max : Option Nat} (hr : r.flags = .source)
    (hk : ∀ K, K.head? ≠ some '?' → Pattern.token .source c (t ++ K) = .ok (.times greedy min max, K)) :
    Leads (r.add names [p]) (c :: t) (r.add names [repeated greedy p min max]) := by
  refine .token hr hk fun r' h => ?_
  have hparts : (r.add names [p]).frame.parts = some p :: r.frame.parts := rfl
  have hgreedy : (greedy != r.flags.swapGreed) = greedy := by simp [hr, Flags.source]
  simp only [act, repeatLast, hparts, add_flags, hgreedy] at h
  split at h
  · cases h
  · cases h
    rfl

theorem Writes.times {c : Char} {greedy : Bool} {min : Nat} {max : Option Nat} (ht : Writes t names [p])
    (hc : c ≠ '?') (hk : ∀ K, K.head? ≠ some '?' → Pattern.token .source c (u ++ K) = .ok (.times greedy min max, K)) :
    Writes (t ++ c :: u) names [repeated greedy p min max] :=
  fun r hr => (ht r hr).append (Reader.leads_times hr hk) (by simpa using hc)

theorem laziness_of_head? {K : Text} (hK : K.head? ≠ some '?') : laziness K = (true, K) := by
  cases K with
  | nil => rfl
  | cons c K =>
    have hc : c ≠ '?' := by simpa using hK
    simp [laziness, hc]

theorem writes_blank : Writes ['\\', 's'] [] [chars .blank] :=
  .token (k := .atom (.set .blank)) (fun _ => rfl) fun _ _ => rfl

theorem writes_any : Writes ['.'] [] [chars .any] :=
  .token (k := .dot) (fun _ => rfl) fun r hr => by
    rw [Reader.act, hr]
    rfl

theorem star_eq_repeated (b : Bool) (p : Pattern) : star b p = repeated b p 0 none := rfl

theorem plus_eq_repeated (b : Bool) (p : Pattern) : plus b p = repeated b p 1 none := rfl

theorem writes_blanks : Writes ['\\', 's', '*'] [] [star true (chars .blank)] := by
  rw [star_eq_repeated]
  exact writes_blank.times (c := '*') (u := []) (by decide) fun K hK => by
    simp only [Pattern.token, List.nil_append, laziness_of_head? hK]

theorem writes_someBlanks : Writes ['\\', 's', '+'] [] [plus true (chars .blank)] := by
  rw [plus_eq_repeated]
  exact writes_blank.times (c := '+') (u := []) (by decide) fun K hK => by
    simp only [Pattern.token, List.nil_append, laziness_of_head? hK]

theorem writes_anything : Writes ['.', '*', '?'] [] [star false (chars .any)] := by
  rw [star_eq_repeated]
  exact writes_any.times (c := '*') (u := ['?']) (by decide) fun _ _ => rfl

/-! ## Quoted tokens -/

theorem quote_head? (t : Text) : (quote t).head? ≠ some '?' := by
  cases t with
  | nil => simp [quote]
  | cons c t =>
    by_cases hc : isMeta c = true
    · simp [quote, hc]
    · have hne : c ≠ '?' := fun h => hc (by rw [h]; decide)
      simp [quote, hc, hne]

theorem writes_char (c : Char) : Writes (quote [c]) [] [literal c] := by
  have hpush : ∀ r : Reader, r.flags = .source → r.act (.atom (.char c false)) = .ok (r.push (literal c)) := by
    intro r hr
    simp [Reader.act, Reader.pushAtom, hr, Flags.source, Flags.fold, literal]
  by_cases hc : isMeta c = true
  · have hquote : quote [c] = ['\\', c] := by simp [quote, hc]
    rw [hquote]
    exact .token (fun K => by simp [Pattern.token, escape, isQuotable, hc, Except.map]) hpush
  · have hquote : quote [c] = [c] := by simp [quote, hc]
    rw [hquote]
    refine .token (fun K => ?_) hpush
    have hmeta : ∀ d, isMeta d = true → c ≠ d := fun d hd h => hc (by rw [h]; exact hd)
    unfold Pattern.token
    split <;> first | rfl | exact absurd rfl (hmeta _ (by decide))

/-- **A quoted text writes its characters.** -/
theorem writes_quote (t : Text) : Writes (quote t) [] (t.map literal) := by
  induction t with
  | nil => exact fun r _ => .refl r
  | cons c t ih =>
    have hquote : quote (c :: t) = quote [c] ++ quote t := by simp [quote]
    have hboth := (writes_char c).append ih (quote_head? t)
    rw [hquote]
    exact hboth

/-! ## Named groups -/

/-- How a named group opens. -/
def groupOpening (name : Text) : Text := '(' :: '?' :: 'P' :: '<' :: (name ++ ['>'])

theorem readAll_enter {name K : Text} (hname : ∀ K, groupName (name ++ '>' :: K) = .ok (name, K))
    (hr : r.flags = .source) {q : Pattern} (h : r.readAll (groupOpening name ++ K) = .ok q) :
    (r.enter name).readAll K = .ok q := by
  have htoken : token .source '(' ('?' :: 'P' :: '<' :: (name ++ ['>']) ++ K) =
      (groupName (name ++ '>' :: K)).map fun x => (.opens (some x.1) .source, x.2) := by
    simp [token, opening, markedOpening, namedOpening]
  have hskip : r.flags.skip (groupOpening name ++ K) = '(' :: ('?' :: 'P' :: '<' :: (name ++ ['>']) ++ K) := by
    rw [hr]
    rfl
  obtain ⟨k, v, r', hk, hact, hread⟩ := Reader.readAll_token_ok hskip h
  rw [hr, htoken, hname] at hk
  cases hk
  simp only [Reader.act] at hact
  split at hact
  · cases hact
  · unfold Reader.openGroup at hact
    split at hact
    · cases hact
    · cases hact
      simpa only [Reader.enter, hr] using hread

theorem leads_enter {name : Text} (hname : ∀ K, groupName (name ++ '>' :: K) = .ok (name, K)) (hr : r.flags = .source) :
    r.Leads (groupOpening name) (r.enter name) :=
  fun _ _ _ h => readAll_enter hname hr h

theorem readAll_leave {name K : Text} (hr : r.flags = .source) {q : Pattern}
    (h : ((r.enter name).add names ps).readAll (')' :: K) = .ok q) :
    (r.add (names ++ [name]) [group name (seqs ps)]).readAll K = .ok q := by
  have hskip : ((r.enter name).add names ps).flags.skip (')' :: K) = ')' :: K := by
    rw [Reader.add_flags, Reader.enter, hr, Flags.source_skip]
  obtain ⟨k, v, r', hk, hact, hread⟩ := Reader.readAll_token_ok hskip h
  cases hk
  cases hact
  simpa [Reader.enter, Reader.add, Frame.close, Frame.alternative, alts, hr, List.filterMap_map] using hread

theorem leads_leave {name : Text} (hr : r.flags = .source) :
    ((r.enter name).add names ps).Leads [')'] (r.add (names ++ [name]) [group name (seqs ps)]) :=
  fun _ _ _ h => readAll_leave hr h

/-- A named group around what a text writes. -/
theorem Writes.group {name : Text} (ht : Writes t names ps) (hhead : t.head? ≠ some '?')
    (hname : ∀ K, groupName (name ++ '>' :: K) = .ok (name, K)) :
    Writes (groupOpening name ++ (t ++ [')'])) (names ++ [name]) [group name (seqs ps)] := by
  intro r hr
  have hbody : (t ++ [')']).head? ≠ some '?' := Reader.head?_append_ne hhead (by simp)
  exact (leads_enter hname hr).append ((ht (r.enter name) hr).append (leads_leave hr) (by simp)) hbody

/-- The same when the group may be missing. -/
theorem Writes.optionalGroup {name : Text} (ht : Writes t names ps) (hhead : t.head? ≠ some '?')
    (hname : ∀ K, groupName (name ++ '>' :: K) = .ok (name, K)) :
    Writes (groupOpening name ++ (t ++ [')', '?'])) (names ++ [name])
      [repeated true (Pattern.group name (seqs ps)) 0 (some 1)] := by
  intro r hr
  have hbody : (t ++ [')', '?']).head? ≠ some '?' := Reader.head?_append_ne hhead (by simp)
  have hleave : ((r.enter name).add names ps).Leads [')', '?']
      (r.add (names ++ [name]) [repeated true (Pattern.group name (seqs ps)) 0 (some 1)]) := fun K p hK h =>
    Reader.leads_times (t := []) hr (fun K hK => by simp only [Pattern.token, List.nil_append, laziness_of_head? hK]) K p
      hK (readAll_leave hr h)
  exact (leads_enter hname hr).append ((ht (r.enter name) hr).append hleave (by simp)) hbody

end

/-! ## The signature -/

/-- The parts behind the arguments of a method with literal tokens. -/
def methodTail (s : Shape) (a : ArgumentTokens) : List Pattern :=
  a.closing.map literal ++ [star true (chars .blank), group "end" (seqs (s.ending.map literal))]

/-- The parts from its argument list on. -/
def methodList (s : Shape) (a : ArgumentTokens) : List Pattern :=
  a.opening.map literal ++ group "args" (star false (chars .any)) :: methodTail s a

/-- The parts that its signature writes. -/
def methodParts (s : Shape) (a : ArgumentTokens) : List Pattern :=
  group "indicator" (seqs (s.indicator.map literal)) :: plus true (chars .blank) ::
    group "name" (star false (chars .any)) :: star true (chars .blank) :: methodList s a

/-- The names of its groups, the latest first. -/
def methodNames : List Text := ["end", "args", "name", "indicator"]

theorem writes_signature {s : Shape} {a : ArgumentTokens} (ha : s.arguments = some a) (hs : s.regex = false)
    (hr : a.regex = false) :
    Writes s.signature methodNames (methodParts s a) := by
  have hindicator : Writes (groupOpening "indicator" ++ (quote s.indicator ++ [')'])) ["indicator"]
      [group "indicator" (seqs (s.indicator.map literal))] :=
    (writes_quote s.indicator).group (quote_head? _) fun _ => rfl
  have hname : Writes (groupOpening "name" ++ (['.', '*', '?'] ++ [')'])) ["name"]
      [group "name" (star false (chars .any))] := writes_anything.group (by simp) fun _ => rfl
  have hlist : Writes (groupOpening "args" ++ (['.', '*', '?'] ++ [')'])) ["args"]
      [group "args" (star false (chars .any))] := writes_anything.group (by simp) fun _ => rfl
  have hend : Writes (groupOpening "end" ++ (quote s.ending ++ [')'])) ["end"]
      [group "end" (seqs (s.ending.map literal))] := (writes_quote s.ending).group (quote_head? _) fun _ => rfl
  have htail := writes_blanks.append hend (by simp [groupOpening])
  have hclosing := (writes_quote a.closing).append htail (by simp)
  have hopening := (writes_quote a.opening).append (hlist.append hclosing
    (Reader.head?_append_ne (quote_head? _) (by simp))) (by simp [groupOpening])
  have hhead := hindicator.append (writes_someBlanks.append (hname.append (writes_blanks.append hopening
    (Reader.head?_append_ne (quote_head? _) (by simp [groupOpening]))) (by simp)) (by simp [groupOpening])) (by simp)
  simpa [Shape.signature, ha, hs, hr, Shape.token, groupOpening, methodParts, methodList, methodTail, methodNames]
    using hhead

/-! ## The delimiter -/

section

variable {d K : Text} {q p : Pattern}

/-- A pattern between parentheses that remember nothing. -/
def parenthesised (d : Text) : Text := '(' :: '?' :: ':' :: (d ++ [')'])

/-- The state inside a parenthesis that remembers nothing, at the start of a
pattern. -/
def Reader.inParenthesis : Reader := ⟨{}, ⟨none, {}, [], []⟩, [Reader.initial.frame], []⟩

/-- What stands behind the first token of a pattern is read in the state that
the token leads to. -/
theorem readAll_opening {c : Char} {t rest : Text} {k : Token} {r : Reader}
    (htoken : token Reader.initial.flags c t = .ok (k, rest)) (hact : Reader.initial.act k = .ok r)
    (h : parse (c :: t) = .ok p) : r.readAll rest = .ok p := by
  obtain ⟨k', v, r', hk, hact', hread⟩ := Reader.readAll_token_ok (r := Reader.initial) rfl h
  cases htoken.symm.trans hk
  cases hact.symm.trans hact'
  exact hread

theorem readAll_parenthesised {t : Text} (h : parse ('(' :: '?' :: ':' :: t) = .ok p) :
    Reader.inParenthesis.readAll t = .ok p :=
  readAll_opening (k := .opens none {}) rfl rfl h

theorem Inside.start {base : Reader} (hflags : Flags.Alike {} base.flags) (hfinished : base.frame.finished = [])
    (hparts : base.frame.parts = []) : Inside base Reader.initial base := by
  refine ⟨hflags, .bottom rfl rfl ⟨?_, ?_⟩, fun _ hn => hn⟩
  · simp [hfinished]
  · simp [hparts]

/-- A group that is the innermost again is closed. -/
theorem Returned.closeGroup {r R : Reader} {name : Text} (h : Returned (r.enter name) R) :
    ∃ body, body.Avoids (name :: r.names) ∧
      R.closeGroup = .ok (r.grown R.names [group name body]) := by
  obtain ⟨f, fr, es, ns⟩ := R
  obtain ⟨hname, houter, havoids, henclosing, -⟩ := h
  obtain ⟨n, outer, finished, parts⟩ := fr
  cases hname
  cases houter
  cases henclosing
  exact ⟨_, havoids.alternatives, rfl⟩

/-- **A pattern stays in the group that is put around it** when it can be read
alone, unless it ends in a comment and a line feed follows somewhere. The names
that were taken before are not used in it. -/
theorem readAll_grouped {r : Reader} {name : Text} (hname : ∀ K, groupName (name ++ '>' :: K) = .ok (name, K))
    (hd : parse d = .ok q) (hcomment : '\n' ∈ K → ∃ q', parse (parenthesised d) = .ok q') (hr : r.flags = .source)
    (h : r.readAll (groupOpening name ++ (d ++ ')' :: K)) = .ok p) :
    ∃ body names, body.Avoids (name :: r.names) ∧ (∀ n ∈ name :: r.names, n ∈ names) ∧
      (r.grown names [group name body]).readAll K = .ok p := by
  have hbase := readAll_enter hname hr h
  have hinside : Inside (r.enter name) Reader.initial (r.enter name) := .start ⟨true, hr⟩ rfl rfl
  -- A comment at the end would have left the group open.
  obtain ⟨R, hR, hread⟩ : ∃ R, Returned (r.enter name) R ∧ R.readAll (')' :: K) = .ok p := by
    rcases Reader.readAll_inside hd with hback | hopen
    · exact hback _ _ K p hinside hbase
    · by_cases hfeed : '\n' ∈ K
      · obtain ⟨q', hq'⟩ := hcomment hfeed
        have hplain : Inside Reader.inParenthesis Reader.initial Reader.inParenthesis := .start ⟨false, rfl⟩ rfl rfl
        exact absurd (readAll_parenthesised hq') (hopen _ _ [] q' (by simp [Reader.inParenthesis]) (by simp) hplain)
      · exact absurd hbase (hopen _ _ K p (by simp [Reader.enter]) hfeed hinside)
  obtain ⟨body, havoids, hclose⟩ := hR.closeGroup
  obtain ⟨k, v, r', hk, hact, hread⟩ := Reader.readAll_token_ok (R.flags.skip_close _) hread
  cases hk
  rw [Reader.act, hclose] at hact
  cases hact
  exact ⟨body, R.names, havoids, hR.names, hread⟩

/-- A delimiter is a group that may be missing. -/
theorem readAll_delimiter {r : Reader} {name : Text} (hname : ∀ K, groupName (name ++ '>' :: K) = .ok (name, K))
    (hd : parse d = .ok q) (hcomment : '\n' ∈ K → ∃ q', parse (parenthesised d) = .ok q') (hr : r.flags = .source)
    (hK : K.head? ≠ some '?') (h : r.readAll (groupOpening name ++ (d ++ ')' :: '?' :: K)) = .ok p) :
    ∃ body names, body.Avoids (name :: r.names) ∧ (∀ n ∈ name :: r.names, n ∈ names) ∧
      (r.grown names [repeated true (group name body) 0 (some 1)]).readAll K = .ok p := by
  obtain ⟨body, names, havoids, hnames, hread⟩ := readAll_grouped hname hd (by simpa using hcomment) hr h
  have hoptional : (r.grown names [group name body]).Leads ['?']
      (r.grown names [repeated true (group name body) 0 (some 1)]) :=
    Reader.leads_times hr fun K hK => by simp only [token, List.nil_append, laziness_of_head? hK]
  exact ⟨body, names, havoids, hnames, hoptional K p hK hread⟩

end

/-! ## The source -/

/-- Whether a delimiter can be read where its shape puts it: alone, and above
the construct also in parentheses, so that it does not end in a comment. -/
structure ReadableDelimiter (s : Shape) : Prop where
  below : s.before = false → ∃ q, parse s.openPattern = .ok q
  above : s.before = true → (∃ q, parse s.closePattern = .ok q) ∧ ∃ q, parse (parenthesised s.closePattern) = .ok q

/-- The state after the switches of a source. -/
def Reader.source : Reader := ⟨.source, ⟨none, {}, [], [none]⟩, [], []⟩

theorem readAll_source {t : Text} {p : Pattern} (h : parse ('(' :: '?' :: 's' :: ')' :: t) = .ok p) :
    Reader.source.readAll t = .ok p :=
  readAll_opening (k := .sets .source) rfl rfl h

theorem eq_seqs_of_readAll {names : List Text} {ps : List Pattern} {p : Pattern}
    (h : (Reader.source.grown names ps).readAll [] = .ok p) : p = seqs ps := by
  rw [Reader.readAll_end (Flags.skip_nil _)] at h
  rw [(Reader.finish_ok h).2]
  simp [Reader.source, Reader.grown, Reader.add, Frame.close, Frame.alternative, alts, List.filterMap_map]

theorem signature_head? (s : Shape) : s.signature.head? = some '(' := by
  unfold Shape.signature
  cases s.arguments <;> rfl

/-- **The source of a construct** writes its signature, with the delimiter that
may stand above it or below it. What reading the signature comes to is left
open. -/
theorem parse_around {s : Shape} {p : Pattern} {Q : List Text → List Pattern → Prop} (hk : s.kind ≠ .header)
    (hd : ReadableDelimiter s)
    (hsignature : ∀ (r : Reader) (K : Text), r.flags = .source → K.head? ≠ some '?' →
      r.readAll (s.signature ++ K) = .ok p → ∃ names ps, Q names ps ∧ (r.grown names ps).readAll K = .ok p)
    (h : parse s.source = .ok p) :
    (s.before = true ∧ ∃ names ps body, Q names ps ∧
      p = seqs ([repeated true (group "close" body) 0 (some 1), star true (chars .blank)] ++ ps)) ∨
    (s.before = false ∧ ∃ names ps body, Q names ps ∧ body.Avoids ("open" :: names) ∧
      p = seqs (ps ++ [star true (chars .blank), repeated true (group "open" body) 0 (some 1)])) := by
  cases hb : s.before with
  | true =>
    obtain ⟨⟨q, hq⟩, hq'⟩ := hd.above hb
    have hsource : s.source = '(' :: '?' :: 's' :: ')' :: (groupOpening "close" ++ (s.closePattern ++
        ')' :: '?' :: (['\\', 's', '*'] ++ (s.signature ++ [])))) := by
      simp [Shape.source, hb, groupOpening]
    rw [hsource] at h
    have hname : ∀ K, groupName (("close" : Text) ++ '>' :: K) = .ok ("close", K) := fun _ => rfl
    obtain ⟨body, names, -, -, h⟩ := readAll_delimiter hname hq (fun _ => hq') rfl (by simp) (readAll_source h)
    replace h := writes_blanks (Reader.source.grown names _) rfl _ p (by simp [signature_head?]) h
    rw [Reader.grown_add] at h
    obtain ⟨more, ps, hps, h⟩ := hsignature _ [] rfl (by simp) h
    rw [Reader.grown_grown] at h
    exact .inl ⟨rfl, more, ps, body, hps, eq_seqs_of_readAll h⟩
  | false =>
    obtain ⟨q, hq⟩ := hd.below hb
    have hsource : s.source = '(' :: '?' :: 's' :: ')' :: (s.signature ++ (['\\', 's', '*'] ++ (groupOpening "open" ++
        (s.openPattern ++ ')' :: '?' :: [])))) := by
      simp [Shape.source, hb, groupOpening]
    rw [hsource] at h
    obtain ⟨names, ps, hps, h⟩ := hsignature .source _ rfl (by simp) (readAll_source h)
    replace h := writes_blanks (Reader.source.grown names ps) rfl _ p (by simp [groupOpening]) h
    rw [Reader.grown_add] at h
    have hname : ∀ K, groupName (("open" : Text) ++ '>' :: K) = .ok ("open", K) := fun _ => rfl
    obtain ⟨body, more, havoids, -, h⟩ :=
      readAll_delimiter (r := Reader.source.grown names _) hname hq (by simp) rfl (by simp) h
    rw [Reader.grown_grown, List.append_assoc] at h
    exact .inr ⟨rfl, names, ps, body, hps, havoids, eq_seqs_of_readAll h⟩

/-- **What the source of a method with literal tokens writes**: the parts of
its signature, with the delimiter that may stand above it or below it. -/
theorem parse_methodSource {s : Shape} {a : ArgumentTokens} (hk : s.kind = .method) (ha : s.arguments = some a)
    (hs : s.regex = false) (hr : a.regex = false) (hd : ReadableDelimiter s) {p : Pattern}
    (h : parse s.source = .ok p) :
    (s.before = true ∧ ∃ body, p = seqs ([repeated true (group "close" body) 0 (some 1), star true (chars .blank)] ++
      methodParts s a)) ∨
    (s.before = false ∧ ∃ body, body.Avoids methodNames ∧
      p = seqs (methodParts s a ++
        [star true (chars .blank), repeated true (group "open" body) 0 (some 1)])) := by
  have hsignature : ∀ (r : Reader) (K : Text), r.flags = .source → K.head? ≠ some '?' →
      r.readAll (s.signature ++ K) = .ok p →
        ∃ names ps, ((∀ n ∈ methodNames, n ∈ names) ∧ ps = methodParts s a) ∧ (r.grown names ps).readAll K = .ok p := by
    intro r K hflags hK h
    have hread := writes_signature ha hs hr r hflags K p hK h
    exact ⟨methodNames ++ r.names, _, ⟨fun n hn => List.mem_append_left _ hn, rfl⟩, hread⟩
  rcases parse_around (by simp [hk]) hd hsignature h with
    ⟨hb, names, ps, body, ⟨-, rfl⟩, hp⟩ | ⟨hb, names, ps, body, ⟨hnames, rfl⟩, havoids, hp⟩
  · exact .inl ⟨hb, body, hp⟩
  · exact .inr ⟨hb, body, havoids.mono fun n hn => List.mem_cons_of_mem _ (hnames n hn), hp⟩

end Pattern
end DocScribe
