/-
Where matches lie.

A pattern moves forward over the text it is tried at: every end is reached
from the start (`Pattern.ends_extends`), and so is every place that a group
remembers. Hence the matches of a text stand one after the other without
overlap (`Pattern.allMatches_pairwise`), each between two places of the text.

Nothing is assumed of the pattern; in particular a group may be remembered
from an earlier round of a repetition, so two groups of one match need not
stand in the order in which the pattern writes them.

A search stops at the first place that has a match. So where no match is
empty, every place that has one lies in one of the matches of the text
(`Pattern.exists_mem_allMatches`).
-/
import DocScribe.Pattern.Search

namespace DocScribe
namespace Cursor

/-- `b` is the place behind some text that starts at `a`. -/
def Reaches (a b : Cursor) : Prop :=
  ∃ passed, a.rest = passed ++ b.rest ∧ b.offset = a.offset + Text.size passed

theorem Reaches.refl (a : Cursor) : a.Reaches a := ⟨[], by simp⟩

theorem Reaches.trans {a b c : Cursor} (hab : a.Reaches b) (hbc : b.Reaches c) : a.Reaches c := by
  obtain ⟨x, hx, ox⟩ := hab
  obtain ⟨y, hy, oy⟩ := hbc
  refine ⟨x ++ y, ?_, ?_⟩
  · rw [hx, hy, List.append_assoc]
  · rw [oy, ox, Text.size_append, Nat.add_assoc]

theorem Reaches.offset_le {a b : Cursor} (h : a.Reaches b) : a.offset ≤ b.offset := by
  obtain ⟨x, -, ox⟩ := h
  omega

theorem Reaches.size_rest {a b : Cursor} (h : a.Reaches b) :
    b.offset + b.rest.size = a.offset + a.rest.size := by
  obtain ⟨x, hx, ox⟩ := h
  rw [hx, Text.size_append, ox]
  omega

theorem reaches_step {a : Cursor} {c : Char} {rest : Text} (h : a.rest = c :: rest) :
    a.Reaches (a.step c rest) :=
  ⟨[c], by simp [step, h], by simp [step]⟩

/-- A place of a text cuts the text at its offset. -/
theorem cut?_of_reaches {t : Text} {c : Cursor} (h : (start t).Reaches c) :
    ∃ head, t = head ++ c.rest ∧ c.offset = head.size ∧ t.cut? c.offset = some (head, c.rest) := by
  obtain ⟨head, ht, ho⟩ := h
  simp only [start, Nat.zero_add] at ht ho
  exact ⟨head, ht, ho, Text.cut?_eq_some_iff.2 ⟨ht, ho⟩⟩

end Cursor

namespace Text

theorem eq_nil_of_size_eq_zero {t : Text} (h : t.size = 0) : t = [] := by
  cases t with
  | nil => rfl
  | cons c t =>
    have := c.utf8Size_pos
    simp only [size_cons] at h
    omega

theorem size_pos_of_ne_nil {t : Text} (h : t ≠ []) : 0 < t.size :=
  Nat.pos_of_ne_zero fun hz => h (eq_nil_of_size_eq_zero hz)

/-- Of two leading parts of a text, the one with fewer bytes leads the other. -/
theorem append_of_size_le {a b x y : Text} (h : a ++ x = b ++ y) (hle : a.size ≤ b.size) :
    ∃ mid, b = a ++ mid ∧ x = mid ++ y := by
  rcases List.append_eq_append_iff.1 h with ⟨mid, hb, hx⟩ | ⟨mid, ha, hy⟩
  · exact ⟨mid, hb, hx⟩
  · have hmid : mid = [] := by
      rw [ha, size_append] at hle
      exact eq_nil_of_size_eq_zero (by omega)
    subst hmid
    exact ⟨[], by simpa using ha.symm, by simpa using hy.symm⟩

theorem eq_of_append_size {a b x y : Text} (h : a ++ x = b ++ y) (hs : a.size = b.size) : a = b ∧ x = y := by
  obtain ⟨mid, rfl, rfl⟩ := append_of_size_le h (by omega)
  have hmid : mid = [] := by
    rw [size_append] at hs
    exact eq_nil_of_size_eq_zero (by omega)
  subst hmid
  simp

end Text

/-! ## Ends of a pattern -/

/-- A part of a text that begins at `a` or later and ends at `b` or earlier. -/
def Span.Within (s : Span) (a b : Cursor) : Prop :=
  a.Reaches s.first ∧ s.first.Reaches s.last ∧ s.last.Reaches b

/-- `e` comes from `s` by moving forward, and the groups it has more lie on
the way. -/
def Trail.Extends (s e : Trail) : Prop :=
  s.place.Reaches e.place ∧
    ∃ new, e.groups = new ++ s.groups ∧ ∀ g ∈ new, g.2.Within s.place e.place

theorem Trail.Extends.refl (s : Trail) : s.Extends s := ⟨.refl _, [], by simp⟩

theorem Trail.Extends.trans {a b c : Trail} (hab : a.Extends b) (hbc : b.Extends c) : a.Extends c := by
  obtain ⟨pab, x, gx, hx⟩ := hab
  obtain ⟨pbc, y, gy, hy⟩ := hbc
  refine ⟨pab.trans pbc, y ++ x, by rw [gy, gx, List.append_assoc], fun g hg => ?_⟩
  rcases List.mem_append.1 hg with hg | hg
  · obtain ⟨h1, h2, h3⟩ := hy g hg
    exact ⟨pab.trans h1, h2, h3⟩
  · obtain ⟨h1, h2, h3⟩ := hx g hg
    exact ⟨h1, h2, h3.trans pbc⟩

namespace Pattern

/-- What holds from one end of an occurrence to the next holds over all of
them. -/
theorem moreEnds_rel {R : Trail → Trail → Prop} (hrefl : ∀ s, R s s) (htrans : ∀ {a b c}, R a b → R b c → R a c)
    {greedy : Bool} {body : Trail → List Trail} (h : ∀ s e, e ∈ body s → R s e) (fuel : Nat) (s e : Trail)
    (he : e ∈ moreEnds greedy body fuel s) : R s e := by
  induction fuel generalizing s with
  | zero =>
    simp only [moreEnds, List.mem_singleton] at he
    exact he ▸ hrefl s
  | succ fuel ih =>
    have further : e ∈ (body s).flatMap (fun e =>
        if e.place.offset = s.place.offset then [] else moreEnds greedy body fuel e) → R s e := by
      intro hm
      obtain ⟨m, hm, hme⟩ := List.mem_flatMap.1 hm
      split at hme
      · simp at hme
      · exact htrans (h s m hm) (ih m hme)
    simp only [moreEnds] at he
    split at he
    · rcases List.mem_append.1 he with he | he
      · exact further he
      · exact List.mem_singleton.1 he ▸ hrefl s
    · rcases List.mem_cons.1 he with rfl | he
      · exact hrefl _
      · exact further he

theorem moreEnds_extends {greedy : Bool} {body : Trail → List Trail}
    (h : ∀ s e, e ∈ body s → s.Extends e) (fuel : Nat) (s e : Trail)
    (he : e ∈ moreEnds greedy body fuel s) : s.Extends e :=
  moreEnds_rel .refl .trans h fuel s e he

/-- **A pattern moves forward**, and remembers only groups on its way. -/
theorem ends_extends (p : Pattern) (s e : Trail) (he : e ∈ p.ends s) : s.Extends e := by
  induction p generalizing s e with
  | empty => exact List.mem_singleton.1 he ▸ .refl s
  | chars set =>
    simp only [ends] at he
    split at he
    · simp at he
    · next c rest hrest =>
      split at he
      · rw [List.mem_singleton.1 he]
        exact ⟨Cursor.reaches_step hrest, [], by simp⟩
      · simp at he
  | anchor a =>
    simp only [ends] at he
    split at he
    · exact List.mem_singleton.1 he ▸ .refl s
    · simp at he
  | seq a b iha ihb =>
    obtain ⟨m, hm, hme⟩ := List.mem_flatMap.1 he
    exact (iha s m hm).trans (ihb m e hme)
  | alt a b iha ihb =>
    rcases List.mem_append.1 he with he | he
    · exact iha s e he
    · exact ihb s e he
  | plus greedy body ih =>
    obtain ⟨m, hm, hme⟩ := List.mem_flatMap.1 he
    split at hme
    · exact List.mem_singleton.1 hme ▸ ih s m hm
    · exact (ih s m hm).trans (moreEnds_extends ih _ m e hme)
  | group name body ih =>
    obtain ⟨m, hm, rfl⟩ := List.mem_map.1 he
    obtain ⟨hp, new, hnew, hin⟩ := ih s m hm
    refine ⟨hp, (name, ⟨s.place, m.place⟩) :: new, by simp [hnew], fun g hg => ?_⟩
    rcases List.mem_cons.1 hg with rfl | hg
    · exact ⟨.refl _, hp, .refl _⟩
    · exact hin g hg

/-! ## Matches of a text -/

theorem matchAt?_eq_head? (p : Pattern) (place : Cursor) :
    p.matchAt? place = ((p.ends ⟨place, []⟩).head?).map fun e => ⟨⟨place, e.place⟩, e.groups⟩ := by
  rw [matchAt?, run_eq_findSome?_ends]
  cases p.ends ⟨place, []⟩ <;> simp

/-- A match covers text from the place it was tried at on, and its groups lie
within. -/
theorem matchAt?_within {p : Pattern} {place : Cursor} {m : Match} (h : p.matchAt? place = some m) :
    m.span.first = place ∧ place.Reaches m.span.last ∧
      ∀ g ∈ m.groups, g.2.Within m.span.first m.span.last := by
  rw [matchAt?_eq_head?] at h
  obtain ⟨e, he, rfl⟩ := Option.map_eq_some_iff.1 h
  obtain ⟨hp, new, hnew, hin⟩ := ends_extends p _ e (List.mem_of_mem_head? he)
  refine ⟨rfl, hp, fun g hg => ?_⟩
  simp only [hnew, List.append_nil] at hg
  exact hin g hg

/-- A match that lies behind a place, in order with its groups. -/
def FoundFrom (place : Cursor) (m : Match) : Prop :=
  place.Reaches m.span.first ∧ m.span.first.Reaches m.span.last ∧
    ∀ g ∈ m.groups, g.2.Within m.span.first m.span.last

theorem FoundFrom.of_reaches {a b : Cursor} {m : Match} (hab : a.Reaches b) (h : FoundFrom b m) :
    FoundFrom a m :=
  ⟨hab.trans h.1, h.2⟩

theorem FoundFrom.of_matchAt? {p : Pattern} {place : Cursor} {m : Match} (h : p.matchAt? place = some m) :
    FoundFrom place m := by
  obtain ⟨h1, h2, h3⟩ := matchAt?_within h
  exact ⟨h1 ▸ .refl _, h1 ▸ h2, h3⟩

theorem foundFrom_of_findFrom {p : Pattern} {rest : Text} {prev : Option Char} {offset : Nat} {m : Match}
    (h : p.findFrom prev offset rest = some m) : FoundFrom ⟨prev, rest, offset⟩ m := by
  induction rest generalizing prev offset with
  | nil => exact .of_matchAt? h
  | cons c rest ih =>
    simp only [findFrom] at h
    split at h
    · next m' hm =>
      cases h
      exact .of_matchAt? hm
    · exact (ih h).of_reaches (Cursor.reaches_step (a := ⟨prev, c :: rest, offset⟩) rfl)

theorem foundFrom_of_findNext? {p : Pattern} {place : Cursor} {m : Match} (h : p.findNext? place = some m) :
    FoundFrom place m := by
  simp only [findNext?] at h
  split at h
  · cases h
  · next m' hm =>
    split at h
    · split at h
      · cases h
      · next c rest hrest =>
        exact (foundFrom_of_findFrom h).of_reaches (Cursor.reaches_step hrest)
    · cases h
      exact foundFrom_of_findFrom hm

theorem matchesAfter_foundFrom (p : Pattern) (fuel : Nat) (place : Cursor) :
    (∀ m ∈ p.matchesAfter fuel place, FoundFrom place m) ∧
      (p.matchesAfter fuel place).Pairwise fun a b => a.span.last.Reaches b.span.first := by
  induction fuel generalizing place with
  | zero => simp [matchesAfter]
  | succ fuel ih =>
    simp only [matchesAfter]
    split
    · simp
    · next m hm =>
      have hfound := foundFrom_of_findNext? hm
      obtain ⟨hall, hpair⟩ := ih m.span.last
      refine ⟨fun m' hm' => ?_, List.pairwise_cons.2 ⟨fun m' hm' => (hall m' hm').1, hpair⟩⟩
      rcases List.mem_cons.1 hm' with rfl | hm'
      · exact hfound
      · exact (hall m' hm').of_reaches (hfound.1.trans hfound.2.1)

theorem allMatches_foundFrom (p : Pattern) (t : Text) :
    (∀ m ∈ p.allMatches t, FoundFrom (.start t) m) ∧
      (p.allMatches t).Pairwise fun a b => a.span.last.Reaches b.span.first := by
  simp only [allMatches]
  split
  · simp
  · next m hm =>
    have hfound : FoundFrom (.start t) m := foundFrom_of_findFrom hm
    obtain ⟨hall, hpair⟩ := matchesAfter_foundFrom p t.length m.span.last
    refine ⟨fun m' hm' => ?_, List.pairwise_cons.2 ⟨fun m' hm' => (hall m' hm').1, hpair⟩⟩
    rcases List.mem_cons.1 hm' with rfl | hm'
    · exact hfound
    · exact (hall m' hm').of_reaches (hfound.1.trans hfound.2.1)

/-- **The matches of a text stand one after the other without overlap.** -/
theorem allMatches_pairwise (p : Pattern) (t : Text) :
    (p.allMatches t).Pairwise fun a b => a.span.last.Reaches b.span.first :=
  (allMatches_foundFrom p t).2

/-! ## Places that matches cover -/

theorem find?_of_matchAt? {p : Pattern} {place : Cursor} {m : Match} (h : p.matchAt? place = some m) :
    p.find? place = some m := by
  obtain ⟨prev, rest, offset⟩ := place
  cases rest with
  | nil => exact h
  | cons c rest => simp only [find?, findFrom, h]

theorem matchAt?_of_findFrom {p : Pattern} {rest : Text} {prev : Option Char} {offset : Nat} {m : Match}
    (h : p.findFrom prev offset rest = some m) : p.matchAt? m.span.first = some m := by
  have here : ∀ {place : Cursor}, p.matchAt? place = some m → p.matchAt? m.span.first = some m :=
    fun hm => by rw [(matchAt?_within hm).1, hm]
  induction rest generalizing prev offset with
  | nil => exact here h
  | cons c rest ih =>
    simp only [findFrom] at h
    split at h
    · next m' hm =>
      cases h
      exact here hm
    · exact ih h

theorem matchAt?_of_mem_matchesAfter {p : Pattern} {fuel : Nat} {place : Cursor} {m : Match}
    (h : m ∈ p.matchesAfter fuel place) : p.matchAt? m.span.first = some m := by
  induction fuel generalizing place with
  | zero => simp [matchesAfter] at h
  | succ fuel ih =>
    simp only [matchesAfter] at h
    split at h
    · simp at h
    · next m' hm =>
      rcases List.mem_cons.1 h with rfl | h
      · simp only [findNext?] at hm
        split at hm
        · cases hm
        · next m' hfind =>
          split at hm
          · split at hm
            · cases hm
            · exact matchAt?_of_findFrom hm
          · cases hm
            exact matchAt?_of_findFrom hfind
      · exact ih h

/-- A match of a text is the match at the place where it begins. -/
theorem matchAt?_of_mem_allMatches {p : Pattern} {t : Text} {m : Match} (h : m ∈ p.allMatches t) :
    p.matchAt? m.span.first = some m := by
  simp only [allMatches] at h
  split at h
  · simp at h
  · next m' hm =>
    rcases List.mem_cons.1 h with rfl | h
    · exact matchAt?_of_findFrom hm
    · exact matchAt?_of_mem_matchesAfter h

section

variable {p : Pattern} {Q : Text → Prop} (hQ : ∀ place, Q place.rest → (p.matchAt? place).isSome = true)
  (hpos : ∀ place m, p.matchAt? place = some m → m.span.start < m.span.stop)

include hQ in
/-- A search does not go past a place that has a match. -/
theorem exists_find? {x y : Text} {place : Cursor} (hplace : place.rest = x ++ y) (hy : Q y) :
    ∃ m, p.find? place = some m ∧ m.span.start ≤ place.offset + x.size := by
  induction x generalizing place with
  | nil =>
    obtain ⟨m, hm⟩ := Option.isSome_iff_exists.1 (hQ place (by rwa [hplace]))
    refine ⟨m, find?_of_matchAt? hm, ?_⟩
    rw [Span.start, (matchAt?_within hm).1]
    exact Nat.le_add_right _ _
  | cons c x ih =>
    cases hm : p.matchAt? place with
    | some m =>
      refine ⟨m, find?_of_matchAt? hm, ?_⟩
      rw [Span.start, (matchAt?_within hm).1]
      exact Nat.le_add_right _ _
    | none =>
      obtain ⟨prev, rest, offset⟩ := place
      cases hplace
      have hnext : (Cursor.mk (some c) (x ++ y) (offset + c.utf8Size)).rest = x ++ y := rfl
      obtain ⟨m, hfind, hle⟩ := ih hnext
      refine ⟨m, ?_, by simpa only [Text.size_cons, Nat.add_assoc] using hle⟩
      simp only [find?, findFrom, hm]
      exact hfind

/-- What stands between a place and a text further on, seen from a place in
between. -/
theorem exists_between {a b : Cursor} {x y : Text} (hab : a.Reaches b) (ha : a.rest = x ++ y)
    (hle : b.offset ≤ a.offset + x.size) : ∃ x', b.rest = x' ++ y ∧ b.offset + x'.size = a.offset + x.size := by
  obtain ⟨passed, hpassed, hoffset⟩ := hab
  obtain ⟨x', rfl, hrest⟩ := Text.append_of_size_le (hpassed.symm.trans ha) (by omega)
  exact ⟨x', hrest, by rw [hoffset, Text.size_append, Nat.add_assoc]⟩

include hpos in
theorem findNext?_eq {place : Cursor} {m : Match} (h : p.find? place = some m) : p.findNext? place = some m := by
  have hm := hpos _ m (matchAt?_of_findFrom h)
  have hle : place.offset ≤ m.span.first.offset := (foundFrom_of_findFrom h).1.offset_le
  have hne : m.span.stop ≠ place.offset := by
    simp only [Span.start, Span.stop] at hm ⊢
    omega
  simp only [findNext?, h, if_neg hne]

include hQ hpos in
theorem exists_mem_matchesAfter {fuel : Nat} {x y : Text} {place : Cursor} (hfuel : place.rest.length < fuel)
    (hplace : place.rest = x ++ y) (hy : Q y) :
    ∃ m ∈ p.matchesAfter fuel place, m.span.start ≤ place.offset + x.size ∧ place.offset + x.size < m.span.stop := by
  induction fuel generalizing place x with
  | zero => omega
  | succ fuel ih =>
    obtain ⟨m, hfind, hle⟩ := exists_find? hQ hplace hy
    have hmatches : p.matchesAfter (fuel + 1) place = m :: p.matchesAfter fuel m.span.last := by
      simp only [matchesAfter, findNext?_eq hpos hfind]
    rw [hmatches]
    by_cases hin : place.offset + x.size < m.span.stop
    · exact ⟨m, List.mem_cons_self, hle, hin⟩
    · have hfound := foundFrom_of_findFrom hfind
      have hreach : place.Reaches m.span.last := hfound.1.trans hfound.2.1
      obtain ⟨x', hrest, hoffset⟩ := exists_between hreach hplace (by simp only [Span.stop] at hin; omega)
      have hshorter : m.span.last.rest.length < place.rest.length := by
        obtain ⟨passed, hpassed, hsize⟩ := hreach
        have hm := hpos _ m (matchAt?_of_findFrom hfind)
        have hstart : place.offset ≤ m.span.first.offset := hfound.1.offset_le
        have hne : passed ≠ [] := by
          rintro rfl
          simp only [Span.start, Span.stop, Text.size_nil] at hm hsize
          omega
        have hlen := List.length_pos_iff.2 hne
        rw [hpassed, List.length_append]
        omega
      obtain ⟨m', hm', hle', hlt'⟩ := ih (by omega) hrest
      exact ⟨m', List.mem_cons_of_mem m hm', by omega, by omega⟩

include hQ hpos in
/-- **Every place that has a match lies in one of the matches**, if no match
is empty. -/
theorem exists_mem_allMatches {t x y : Text} (ht : t = x ++ y) (hy : Q y) :
    ∃ m ∈ p.allMatches t, m.span.start ≤ x.size ∧ x.size < m.span.stop := by
  have hplace : (Cursor.start t).rest = x ++ y := ht
  obtain ⟨m, hfind, -⟩ := exists_find? hQ hplace hy
  have hmatches : p.matchesAfter (t.length + 1) (.start t) = p.allMatches t := by
    rw [matchesAfter, findNext?_eq hpos hfind, allMatches, hfind]
  have hlen : (Cursor.start t).rest.length < t.length + 1 := Nat.lt_succ_self _
  have hcovered := exists_mem_matchesAfter hQ hpos hlen hplace hy
  rw [hmatches] at hcovered
  simpa [Cursor.start] using hcovered

end

end Pattern

theorem Match.group?_mem {m : Match} {name : Text} {s : Span} (h : m.group? name = some s) :
    ∃ g ∈ m.groups, g.2 = s := by
  obtain ⟨g, hg, rfl⟩ := Option.map_eq_some_iff.1 h
  exact ⟨g, List.mem_of_find?_eq_some hg, rfl⟩

end DocScribe
