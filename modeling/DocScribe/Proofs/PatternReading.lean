/-
Patterns inside patterns.

A pattern that can be read alone is read the same inside a group of another
pattern: the groups that it opens it also closes, so that the parenthesis
behind it closes the group around it, and what it leaves in that group uses no
name that was taken before (`Reader.readAll_inside`). The one exception is a
pattern that ends in a comment. The comment takes the parenthesis too, and
goes on to the next line feed.

Nothing is said about what the pattern means in there: the switches in force
around it may tell the dot to match line feeds.
-/
import DocScribe.Proofs.PatternTokens

namespace DocScribe
namespace Pattern

/-! ## Reading to the end -/

theorem Reader.part_length {r r' : Reader} {c : Char} {t v : Text} (h : r.part c t = .ok (r', v)) :
    v.length ≤ t.length := by
  rw [Reader.part_eq] at h
  obtain ⟨⟨k, w⟩, hk, h⟩ := bind_ok_iff.1 h
  cases ha : r.act k with
  | error e =>
    rw [ha] at h
    cases h
  | ok r₁ =>
    rw [ha] at h
    cases h
    exact (token_carries hk).shorter

/-- A pattern has no more parts than characters. -/
theorem Reader.read_enough {n m : Nat} {t : Text} (r : Reader) (hn : t.length < n) (hm : t.length < m) :
    r.read n t = r.read m t := by
  induction n generalizing m t r with
  | zero => omega
  | succ n ih =>
    obtain ⟨m, rfl⟩ : ∃ k, m = k + 1 := ⟨m - 1, by omega⟩
    have hskip := r.flags.skip_length t
    simp only [Reader.read]
    split
    · rfl
    · next c u hu =>
      rw [hu, List.length_cons] at hskip
      cases hp : r.part c u with
      | error e => rfl
      | ok x =>
        have hlen : x.2.length ≤ u.length := part_length hp
        exact ih x.1 (by omega) (by omega)

/-- The rest of a pattern, read to its end. -/
def Reader.readAll (r : Reader) (t : Text) : Except Fault Pattern := r.read (t.length + 1) t

variable {r R : Reader} {p P : Pattern} {t u : Text}

theorem Reader.readAll_end (h : r.flags.skip t = []) : r.readAll t = r.finish := by
  rw [readAll, read, h]

theorem Reader.readAll_token {c : Char} (h : r.flags.skip t = c :: u) :
    r.readAll t = (token r.flags c u).bind fun k => (r.act k.1).bind fun r' => r'.readAll k.2 := by
  have hskip := r.flags.skip_length t
  rw [h, List.length_cons] at hskip
  rw [readAll, read, h]
  show (r.part c u).bind (fun x => x.1.read t.length x.2) = _
  rw [Reader.part_eq]
  cases hk : token r.flags c u with
  | error e => rfl
  | ok k =>
    have hlen := (token_carries (k := k.1) (v := k.2) hk).shorter
    show ((r.act k.1).map (·, k.2)).bind (fun x => x.1.read t.length x.2) = (r.act k.1).bind fun r' => r'.readAll k.2
    cases r.act k.1 with
    | error e => rfl
    | ok r' => exact r'.read_enough (Nat.lt_of_le_of_lt hlen hskip) (Nat.lt_succ_self _)

/-- Where a pattern can be read, its next token can, and then the rest. -/
theorem Reader.readAll_token_ok {c : Char} (h : r.flags.skip t = c :: u) (hr : r.readAll t = .ok p) :
    ∃ k v r', token r.flags c u = .ok (k, v) ∧ r.act k = .ok r' ∧ r'.readAll v = .ok p := by
  rw [readAll_token h] at hr
  obtain ⟨⟨k, v⟩, hk, hr⟩ := bind_ok_iff.1 hr
  obtain ⟨r', ha, hr⟩ := bind_ok_iff.1 hr
  exact ⟨k, v, r', hk, ha, hr⟩

theorem Reader.finish_ok (h : r.finish = .ok p) : r.enclosing = [] ∧ p = r.frame.close := by
  simp only [finish] at h
  split at h
  · next hempty =>
    split at h
    · cases h
    · cases h
      exact ⟨List.isEmpty_iff.1 hempty, rfl⟩
  · cases h

/-! ## Names of groups -/

/-- No group of a pattern has one of these names. -/
def Avoids (names : List Text) : Pattern → Prop
  | empty | chars _ | anchor _ => True
  | seq a b | alt a b => a.Avoids names ∧ b.Avoids names
  | plus _ p => p.Avoids names
  | group name p => name ∉ names ∧ p.Avoids names

instance Avoids.decidable (names : List Text) : (p : Pattern) → Decidable (p.Avoids names)
  | empty | chars _ | anchor _ => isTrue trivial
  | seq a b | alt a b => @instDecidableAnd _ _ (Avoids.decidable names a) (Avoids.decidable names b)
  | plus _ p => Avoids.decidable names p
  | group _ p => @instDecidableAnd _ _ inferInstance (Avoids.decidable names p)

section

variable {names : List Text} {ps : List Pattern}

theorem Avoids.mono {more : List Text} (h : p.Avoids more) (hsub : ∀ n ∈ names, n ∈ more) : p.Avoids names := by
  induction p with
  | empty => trivial
  | chars _ => trivial
  | anchor _ => trivial
  | seq _ _ iha ihb => exact ⟨iha h.1, ihb h.2⟩
  | alt _ _ iha ihb => exact ⟨iha h.1, ihb h.2⟩
  | plus _ _ ih => exact ih h
  | group name _ ih => exact ⟨fun hn => h.1 (hsub name hn), ih h.2⟩

theorem Avoids.seqs (h : ∀ p ∈ ps, p.Avoids names) : (seqs ps).Avoids names := by
  induction ps with
  | nil => trivial
  | cons p ps ih =>
    have hps := ih fun q hq => h q (List.mem_cons_of_mem p hq)
    cases ps with
    | nil => exact h p List.mem_cons_self
    | cons q ps => exact ⟨h p List.mem_cons_self, hps⟩

theorem Avoids.alts (h : ∀ p ∈ ps, p.Avoids names) : (alts ps).Avoids names := by
  induction ps with
  | nil => trivial
  | cons p ps ih =>
    have hps := ih fun q hq => h q (List.mem_cons_of_mem p hq)
    cases ps with
    | nil => exact h p List.mem_cons_self
    | cons q ps => exact ⟨h p List.mem_cons_self, hps⟩

theorem Avoids.optional {b : Bool} (h : p.Avoids names) : (optional b p).Avoids names := by
  unfold Pattern.optional
  split
  · exact ⟨h, trivial⟩
  · exact ⟨trivial, h⟩

theorem Avoids.timesThen {n : Nat} {tail : Pattern} (h : p.Avoids names) (ht : tail.Avoids names) :
    (timesThen p n tail).Avoids names := by
  induction n with
  | zero => exact ht
  | succ n ih => exact ⟨h, ih⟩

theorem Avoids.upTo {b : Bool} {n : Nat} (h : p.Avoids names) : (upTo b p n).Avoids names := by
  induction n with
  | zero => trivial
  | succ n ih => exact .optional ⟨h, ih⟩

theorem Avoids.repeated {b : Bool} {min : Nat} {max : Option Nat} (h : p.Avoids names) :
    (repeated b p min max).Avoids names := by
  cases max with
  | some max => exact .timesThen h (.upTo h)
  | none =>
    cases min with
    | zero => exact .optional (p := plus b p) h
    | succ n =>
      have hplus : (plus b p).Avoids names := h
      exact .timesThen h hplus

end

/-- Nothing read so far in an open group uses one of these names. -/
structure Frame.Avoids (names : List Text) (fr : Frame) : Prop where
  finished : ∀ p ∈ fr.finished, p.Avoids names
  parts : ∀ p, some p ∈ fr.parts → p.Avoids names

namespace Frame.Avoids

variable {names : List Text} {fr : Frame}

theorem new (name : Option Text) (f : Flags) : Frame.Avoids names ⟨name, f, [], []⟩ := by
  constructor <;> simp

theorem push (h : fr.Avoids names) (hp : p.Avoids names) :
    Frame.Avoids names { fr with parts := some p :: fr.parts } := by
  refine ⟨h.finished, fun q hq => ?_⟩
  simp only [List.mem_cons, Option.some.injEq] at hq
  rcases hq with rfl | hq
  · exact hp
  · exact h.parts q hq

theorem skip (h : fr.Avoids names) : Frame.Avoids names { fr with parts := none :: fr.parts } :=
  ⟨h.finished, fun q hq => h.parts q (by simpa using hq)⟩

theorem alternative (h : fr.Avoids names) : fr.alternative.Avoids names := by
  refine .seqs fun p hp => h.parts p ?_
  simpa using hp

theorem alternatives (h : fr.Avoids names) : (alts (fr.alternative :: fr.finished).reverse).Avoids names := by
  refine .alts fun p hp => ?_
  simp only [List.mem_reverse, List.mem_cons] at hp
  rcases hp with rfl | hp
  · exact h.alternative
  · exact h.finished p hp

theorem bar (h : fr.Avoids names) :
    Frame.Avoids names { fr with finished := fr.alternative :: fr.finished, parts := [] } := by
  refine ⟨fun p hp => ?_, by simp⟩
  rcases List.mem_cons.1 hp with rfl | hp
  · exact h.alternative
  · exact h.finished p hp

theorem close (h : fr.Avoids names) (hname : ∀ n ∈ fr.name, n ∉ names) : fr.close.Avoids names := by
  unfold Frame.close
  split
  · next n hn => exact ⟨hname n hn, h.alternatives⟩
  · exact h.alternatives

end Frame.Avoids

/-! ## The open groups -/

/-- Groups that are open when a pattern is read alone, from the innermost out,
and those when the same is read inside the innermost group of `base`. The
outermost of the first stands for that group of `base`. -/
inductive Nested (base : Reader) : Frame → List Frame → Frame → List Frame → Prop
  | bottom {fr F : Frame} (name : F.name = base.frame.name) (outer : F.outer = base.frame.outer)
      (avoids : F.Avoids base.names) : Nested base fr [] F base.enclosing
  | above {fr F fr' F' : Frame} {es Es : List Frame} (outer : fr.outer.Alike F.outer)
      (name : ∀ n ∈ F.name, n ∉ base.names) (avoids : F.Avoids base.names) (below : Nested base fr' es F' Es) :
      Nested base fr (fr' :: es) F (F' :: Es)

/-- A reader `r` of a pattern alone and a reader `R` of the same inside the
innermost group of `base`. -/
structure Inside (base r R : Reader) : Prop where
  flags : r.flags.Alike R.flags
  stack : Nested base r.frame r.enclosing R.frame R.enclosing
  names : ∀ n ∈ base.names, n ∈ R.names

variable {base r' R' : Reader}

theorem Nested.avoids {fr F : Frame} {es Es : List Frame} (h : Nested base fr es F Es) : F.Avoids base.names := by
  cases h with
  | bottom _ _ avoids => exact avoids
  | above _ _ avoids _ => exact avoids

/-- What is read changes the innermost group only. -/
theorem Nested.update {fr F fr₁ F₁ : Frame} {es Es : List Frame} (h : Nested base fr es F Es)
    (houter : fr₁.outer = fr.outer) (hname : F₁.name = F.name) (hout : F₁.outer = F.outer)
    (havoids : F₁.Avoids base.names) : Nested base fr₁ es F₁ Es := by
  cases h with
  | bottom name outer _ => exact .bottom (hname.trans name) (hout.trans outer) havoids
  | above outer name _ below => exact .above (by rw [houter, hout]; exact outer) (by rw [hname]; exact name) havoids below

namespace Inside

theorem skip_eq (h : Inside base r R) (t : Text) : R.flags.skip t = r.flags.skip t := by
  obtain ⟨b, hb⟩ := h.flags
  rw [hb]
  rfl

/-- One more part on both sides. -/
theorem push (h : Inside base r R) (q : Pattern) {Q : Pattern} (hQ : Q.Avoids base.names) :
    Inside base (r.push q) (R.push Q) :=
  ⟨h.flags, h.stack.update rfl rfl rfl (h.stack.avoids.push hQ), h.names⟩

theorem pushAtom {a : Atom} (h : Inside base r R) (hr : r.pushAtom a = .ok r') (hR : R.pushAtom a = .ok R') :
    Inside base r' R' := by
  cases a with
  | char c raw =>
    simp only [Reader.pushAtom] at hr hR
    split at hr
    · cases hr
    · split at hR
      · cases hR
      · cases hr
        cases hR
        exact h.push _ trivial
  | set s =>
    cases hr
    cases hR
    exact h.push _ trivial
  | anchor a =>
    cases hr
    cases hR
    exact h.push _ trivial

theorem repeatLast {greedy : Bool} {min : Nat} {max : Option Nat} (h : Inside base r R)
    (hr : r.repeatLast greedy min max = .ok r') (hR : R.repeatLast greedy min max = .ok R') : Inside base r' R' := by
  unfold Reader.repeatLast at hr hR
  split at hr
  · next q before hparts =>
    split at hr
    · cases hr
    · cases hr
      split at hR
      · next Q Before hParts =>
        split at hR
        · cases hR
        · cases hR
          have hQ := h.stack.avoids.parts Q (by rw [hParts]; exact List.mem_cons_self)
          refine ⟨h.flags, h.stack.update rfl rfl rfl ⟨h.stack.avoids.finished, fun p hp => ?_⟩, h.names⟩
          simp only [List.mem_cons, Option.some.injEq] at hp
          rcases hp with rfl | hp
          · exact hQ.repeated
          · exact h.stack.avoids.parts p (by rw [hParts]; exact List.mem_cons_of_mem _ hp)
      · cases hR
  · cases hr

theorem openGroup {name : Option Text} {f g : Flags} (h : Inside base r R) (hfg : f.Alike g)
    (hname : ∀ n ∈ name, n ∉ base.names) (hr : r.openGroup name f = .ok r') (hR : R.openGroup name g = .ok R') :
    Inside base r' R' := by
  unfold Reader.openGroup at hr hR
  split at hr
  · cases hr
  · split at hR
    · cases hR
    · cases hr
      cases hR
      exact ⟨hfg, .above h.flags hname (.new name R.flags) h.stack, h.names⟩

theorem closeGroup (h : Inside base r R) (hr : r.closeGroup = .ok r') (hR : R.closeGroup = .ok R') :
    Inside base r' R' := by
  obtain ⟨rf, rfr, res, rn⟩ := r
  obtain ⟨Rf, Rfr, Res, Rn⟩ := R
  obtain ⟨hflags, hstack, hnames⟩ := h
  cases hstack with
  | bottom _ _ _ => cases hr
  | above outer name avoids below =>
    cases hr
    cases hR
    exact ⟨outer, below.update rfl rfl rfl (below.avoids.push (avoids.close name)), hnames⟩

/-- Each token keeps both sides in step. -/
theorem act {k k' : Token} (h : Inside base r R) (hk : k.Alike k') (hr : r.act k = .ok r')
    (hR : R.act k' = .ok R') : Inside base r' R' := by
  have hopens : ∀ {name : Option Text} {f g : Flags}, f.Alike g → r.act (.opens name f) = .ok r' →
      R.act (.opens name g) = .ok R' → Inside base r' R' := by
    intro name f g hfg hr hR
    cases name with
    | none => exact h.openGroup hfg (by simp) hr hR
    | some n =>
      simp only [Reader.act] at hr hR
      split at hr
      · cases hr
      · split at hR
        · cases hR
        · next hfresh =>
          have hn : n ∉ R.names := by simpa using hfresh
          have hnew : Inside base { r with names := n :: r.names } { R with names := n :: R.names } :=
            ⟨h.flags, h.stack, fun m hm => List.mem_cons_of_mem n (h.names m hm)⟩
          exact hnew.openGroup hfg (fun m hm hmem => by
            cases hm
            exact hn (h.names n hmem)) hr hR
  have hsets : ∀ {f g : Flags}, f.Alike g → r.act (.sets f) = .ok r' → R.act (.sets g) = .ok R' →
      Inside base r' R' := by
    intro f g hfg hr hR
    cases hr
    cases hR
    exact ⟨hfg, h.stack.update rfl rfl rfl h.stack.avoids.skip, h.names⟩
  cases hk with
  | opens name hfg => exact hopens hfg hr hR
  | sets hfg => exact hsets hfg hr hR
  | refl k =>
    cases k with
    | opens name f => exact hopens (.refl f) hr hR
    | sets f => exact hsets (.refl f) hr hR
    | closes => exact h.closeGroup hr hR
    | bar =>
      cases hr
      cases hR
      exact ⟨h.flags, h.stack.update rfl rfl rfl h.stack.avoids.bar, h.names⟩
    | oneOf s =>
      cases hr
      cases hR
      exact h.push _ trivial
    | atom a => exact h.pushAtom hr hR
    | dot =>
      simp only [Reader.act] at hr hR
      cases hd : r.flags.dot with
      | error e =>
        rw [hd] at hr
        cases hr
      | ok s =>
        cases hD : R.flags.dot with
        | error e =>
          rw [hD] at hR
          cases hR
        | ok S =>
          rw [hd] at hr
          rw [hD] at hR
          cases hr
          cases hR
          exact h.push _ trivial
    | startMark =>
      cases hr
      cases hR
      exact h.push _ trivial
    | endMark =>
      cases hr
      cases hR
      exact h.push _ trivial
    | times greedy min max => exact h.repeatLast hr hR

/-- When the pattern ends, the group of `base` is the innermost again. -/
theorem enclosing_eq (h : Inside base r R) (hr : r.enclosing = []) :
    R.frame.name = base.frame.name ∧ R.frame.outer = base.frame.outer ∧ R.enclosing = base.enclosing := by
  obtain ⟨Rf, Rfr, Res, Rn⟩ := R
  obtain ⟨-, hstack, -⟩ := h
  rw [hr] at hstack
  cases hstack with
  | bottom name outer _ => exact ⟨name, outer, rfl⟩

end Inside

/-! ## Reading inside a group -/

/-- The group of `base` is the innermost again, whatever was read in it. -/
structure Returned (base R : Reader) : Prop where
  name : R.frame.name = base.frame.name
  outer : R.frame.outer = base.frame.outer
  avoids : R.frame.Avoids base.names
  enclosing : R.enclosing = base.enclosing
  /-- A name that was taken stays taken. -/
  names : ∀ n ∈ base.names, n ∈ R.names

theorem Inside.returned (h : Inside base r R) (hr : r.enclosing = []) : Returned base R := by
  obtain ⟨hname, houter, henclosing⟩ := h.enclosing_eq hr
  exact ⟨hname, houter, h.stack.avoids, henclosing, h.names⟩

/-- A group that is still open at the end of the text is a fault. -/
theorem Inside.finish_ne (h : Inside base r R) (hr : r.enclosing = []) (hbase : base.enclosing ≠ []) :
    R.finish ≠ .ok P := fun hf => hbase ((h.enclosing_eq hr).2.2.symm.trans (Reader.finish_ok hf).1)

/-- **A pattern that can be read alone can be read inside a group**: reading
comes back to the group at the parenthesis that closes it. Or else the
pattern ends in a comment, and then the group stays open where no line feed
follows. -/
theorem Reader.readAll_inside (h : r.readAll u = .ok p) :
    (∀ base R K P, Inside base r R → R.readAll (u ++ ')' :: K) = .ok P →
      ∃ R', Returned base R' ∧ R'.readAll (')' :: K) = .ok P) ∨
    ∀ base R K P, base.enclosing ≠ [] → '\n' ∉ K → Inside base r R → R.readAll (u ++ ')' :: K) ≠ .ok P := by
  induction hn : u.length using Nat.strongRecOn generalizing r u with
  | ind n ih =>
    subst hn
    cases hskip : r.flags.skip u with
    | nil =>
      rw [readAll_end hskip] at h
      have hclosed := (finish_ok h).1
      have hcarries := (r.flags.skip_carries u).before
      rw [hskip] at hcarries
      rcases hcarries with hback | ⟨-, hcomment⟩
      · refine .inl fun base R K P hin hR => ⟨R, hin.returned hclosed, ?_⟩
        have hu : R.flags.skip (u ++ ')' :: K) = ')' :: K := by
          rw [hin.skip_eq]
          simpa using hback K
        rwa [readAll_token hu, ← readAll_token (R.flags.skip_close K)] at hR
      · refine .inr fun base R K P hbase hK hin hR => ?_
        have hu : R.flags.skip (u ++ ')' :: K) = [] := by
          rw [hin.skip_eq]
          simpa using hcomment K hK
        rw [readAll_end hu] at hR
        exact hin.finish_ne hclosed hbase hR
    | cons c t =>
      have hlen := r.flags.skip_length u
      rw [hskip, List.length_cons] at hlen
      obtain ⟨k, v, r', hk, hact, hr'⟩ := readAll_token_ok hskip h
      have hv := (token_carries hk).shorter
      -- What is read inside the group is the same token, up to the dot, with the same effect.
      have hinside : ∀ {base R K P w}, Inside base r R → R.readAll (u ++ ')' :: K) = .ok P →
          token r.flags c (t ++ ')' :: K) = .ok (k, w) → ∃ R', Inside base r' R' ∧ R'.readAll w = .ok P := by
        intro base R K P w hin hR hw
        have hu : R.flags.skip (u ++ ')' :: K) = c :: (t ++ ')' :: K) := by
          rw [hin.skip_eq, Flags.skip_cons_append hskip]
        obtain ⟨K', w', R', hK', hAct, hR'⟩ := readAll_token_ok hu hR
        obtain ⟨k', hkk', hk'⟩ := token_alike hin.flags hw
        rw [hk'] at hK'
        cases hK'
        exact ⟨R', hin.act hkk' hact hAct, hR'⟩
      rcases (token_carries hk).before with hback | ⟨rfl, hcomment⟩
      · refine (ih _ (by omega) hr' rfl).imp (fun hgo base R K P hin hR => ?_) fun hno base R K P hbase hK hin hR => ?_
        · obtain ⟨R', hin', hR'⟩ := hinside hin hR (hback K)
          exact hgo base R' K P hin' hR'
        · obtain ⟨R', hin', hR'⟩ := hinside hin hR (hback K)
          exact hno base R' K P hbase hK hin' hR'
      · refine .inr fun base R K P hbase hK hin hR => ?_
        obtain ⟨R', hin', hR'⟩ := hinside hin hR (hcomment K hK)
        rw [readAll_end (Flags.skip_nil _)] at hr' hR'
        exact hin'.finish_ne (finish_ok hr').1 hbase hR'

end Pattern
end DocScribe
