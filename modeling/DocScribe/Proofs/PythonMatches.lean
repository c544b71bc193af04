/-
The patterns for Python match the signatures of Python.

The pattern for classes reads the form of the signatures of classes
(`Python.class_reads`), that for methods the form of those of methods
(`Python.method_reads`), and that for headers tells whether a docstring opens
the text (`Python.header_matchAt?`).
-/
import DocScribe.Proofs.OrderedTokens
import DocScribe.Proofs.PythonForms
import DocScribe.Proofs.PythonGrammar
import DocScribe.Proofs.SweepScan

namespace DocScribe
namespace Python

open Pattern

variable {β : Type} {s : Trail} {k : Trail → Option β} {f : Trail → β}

theorem run_blanks {g R : Text} {b : β} (h : s.place.rest = g ++ R) (hg : Blank g)
    (hR : ∀ c R', R = c :: R' → isBlank c = false) (hk : k (s.ahead g) = some b) : blanks.run s k = some b :=
  star_greedy h hg hR hk

theorem orElse_of_some {a c : Option β} {b : β} (h : a = some b) : (a <|> c) = some b := by
  rw [h]
  rfl

/-! ## The gap behind a signature -/

/-- What is remembered of the docstring that may open a text. -/
def OpenGroup (name y : Text) (groups : List (Text × Span)) : Prop :=
  if opened y then ∃ span, groups = [(name, span)] else groups = []

theorem OpenGroup.isSome {name y : Text} {groups : List (Text × Span)} (h : OpenGroup name y groups) :
    (groups.find? fun g => g.1 == name).isSome = opened y := by
  unfold OpenGroup at h
  split at h
  · next hopen =>
    obtain ⟨span, rfl⟩ := h
    simp [hopen]
  · next hclosed =>
    subst h
    simpa using hclosed

theorem OpenGroup.other {name other y : Text} {groups : List (Text × Span)} (h : OpenGroup name y groups)
    (hne : name ≠ other) : groups.find? (fun g => g.1 == other) = none := by
  unfold OpenGroup at h
  split at h
  · obtain ⟨span, rfl⟩ := h
    simp [hne]
  · subst h
    rfl

/-- The blanks and the quotes behind a signature are taken in. -/
theorem run_gap (name : Text) {y : Text} (h : s.place.rest = y) :
    ∃ groups, OpenGroup name y groups ∧ (seqs [blanks, quotes? name]).run s (fun e => some (f e)) =
      some (f ⟨s.place.ahead (gap y), groups ++ s.groups⟩) := by
  have hsplit : s.place.rest = y.takeWhile isBlank ++ y.dropWhile isBlank := by
    rw [h, List.takeWhile_append_dropWhile]
  have hnext := Trail.ahead_rest hsplit
  have hhead : ∀ c R', y.dropWhile isBlank = c :: R' → isBlank c = false := by
    intro c R' hc
    rcases dropWhile_blank_cases y with hnil | ⟨d, rest, hd, hblank⟩
    · rw [hnil] at hc
      cases hc
    · rw [hd] at hc
      cases hc
      exact hblank
  cases hopen : opened y with
  | true =>
    obtain ⟨rest, hrest⟩ := Text.startsWith_iff.1 hopen
    refine ⟨[(name, ⟨s.place.ahead (y.takeWhile isBlank), s.place.ahead (gap y)⟩)], ?_, ?_⟩
    · rw [OpenGroup, if_pos hopen]
      exact ⟨_, rfl⟩
    rw [run_seqs_cons]
    refine run_blanks hsplit (blank_takeWhile y) hhead ?_
    have hgap : gap y = y.takeWhile isBlank ++ quotes := by simp [gap, hopen]
    show (quotes? name).run _ _ = _
    rw [quotes?, run_optional, run_group]
    have htoken := run_token (t := quotes) (s := s.ahead (y.takeWhile isBlank)) (R := rest)
      (k := fun e => some (f (e.remember name (s.ahead (y.takeWhile isBlank)).place)))
      (by rw [hnext, hrest])
    rw [show token "\"\"\"".toList = seqs (quotes.map literal) from rfl, htoken, hgap, Cursor.ahead_append]
    rfl
  | false =>
    refine ⟨[], ?_, ?_⟩
    · rw [OpenGroup, if_neg (by simp [hopen])]
    rw [run_seqs_cons]
    refine run_blanks hsplit (blank_takeWhile y) hhead ?_
    have hnone : ∀ K : Trail → Option β, (token "\"\"\"".toList).run (s.ahead (y.takeWhile isBlank)) K = none := by
      intro K
      rw [← Option.not_isSome_iff_eq_none]
      intro hsome
      obtain ⟨hquotes, -⟩ := exists_of_token (t := quotes) hsome
      rw [hnext] at hquotes
      rw [opened, Text.startsWith_iff.2 ⟨_, hquotes⟩] at hopen
      cases hopen
    show (quotes? name).run _ _ = _
    rw [quotes?, run_optional, run_group, hnone, gap_of_not_opened hopen]
    rfl

/-- The colon that ends a signature, and the gap behind it. -/
theorem run_ending {y : Text} (h : s.place.rest = ':' :: y) :
    ∃ groups, OpenGroup "open" y groups ∧
      (seqs [group "end" (literal ':'), blanks, quotes? "open"]).run s (fun e => some (f e)) =
        some (f ⟨s.place.ahead (':' :: gap y),
          groups ++ ("end".toList, ⟨s.place, s.place.ahead [':']⟩) :: s.groups⟩) := by
  obtain ⟨groups, hgroups, hrun⟩ := run_gap (f := f) "open"
    (s := ⟨s.place.ahead [':'], ("end".toList, ⟨s.place, s.place.ahead [':']⟩) :: s.groups⟩)
    (Cursor.ahead_rest (r := [':']) h)
  refine ⟨groups, hgroups, ?_⟩
  rw [run_seqs_cons, run_group, run_literal ':' h]
  exact hrun

theorem run_ending_none (h : ∀ R, s.place.rest ≠ ':' :: R) :
    (seqs [group "end" (literal ':'), blanks, quotes? "open"]).run s k = none := by
  rw [run_seqs_cons, run_group]
  exact run_literal_none h

theorem find?_other {name other : Text} (h : other ≠ name) {span : Span} {groups : List (Text × Span)} :
    ((other, span) :: groups).find? (fun g => g.1 == name) = groups.find? fun g => g.1 == name :=
  List.find?_cons_of_neg (by simpa using h)

/-- A match whose groups are, from the latest on, the quotes if they are there,
the colon and, among others, the indicator at the start. -/
theorem matched_of_groups {g : Grammar} (hk : g.shape.kind ≠ .header) (hb : g.shape.before = false)
    {place i : Cursor} {x y : Text} {opens : List (Text × Span)} (groups : List (Text × Span))
    (first : Cursor) (h : place.rest = x ++ y) (hopens : OpenGroup "open" y opens)
    (hindicator : groups.find? (fun p => p.1 == "indicator".toList) = some ("indicator".toList, ⟨place, i⟩))
    (hopen : groups.find? (fun p => p.1 == "open".toList) = none) :
    g.Matched ⟨⟨place, place.ahead (x ++ gap y)⟩, opens ++ ("end".toList, ⟨first, place.ahead x⟩) :: groups⟩
      place x y := by
  refine ⟨h, rfl, fun t => ?_, ?_⟩
  · unfold Grammar.signature?
    split
    · contradiction
    · simp only [Match.group?, List.find?_append,
        hopens.other (by decide : "open".toList ≠ "indicator".toList),
        hopens.other (by decide : "open".toList ≠ "end".toList), Option.none_or, hindicator,
        find?_other (by decide : "end".toList ≠ "indicator".toList)]
      rfl
  · unfold Grammar.documentedGroup
    split
    · contradiction
    · rw [hb, if_neg (by simp), Match.group?, Option.isSome_map, List.find?_append, find?_other (by decide),
        hopen, Option.or_none, hopens.isSome]

/-! ## Classes -/

/-- The ancestors of a class, if there are any. -/
def ancestors : Pattern :=
  repeated true (group "end_name" (seqs [literal '(', star false (chars .any)])) 0 (some 1)

/-- What comes behind the name of a class. -/
def classTail : Pattern := seqs [blanks, ancestors, group "end" (literal ':'), blanks, quotes? "open"]

theorem head_of_ancestry {anc y : Text} (hanc : Ancestry anc) {c : Char} {R : Text}
    (h : anc ++ ':' :: y = c :: R) :
    isBlank c = false := by
  rcases hanc with rfl | ⟨v, rfl, -⟩ <;>
    · cases h
      decide

theorem run_classTail {g anc y : Text} (h : s.place.rest = g ++ (anc ++ ':' :: y)) (hg : Blank g)
    (hanc : Ancestry anc) :
    ∃ (opens mid : List (Text × Span)) (first : Cursor), OpenGroup "open" y opens ∧
      (∀ name : Text, name ≠ "end_name" → mid.find? (fun p => p.1 == name) = none) ∧
      classTail.run s (fun e => some (f e)) = some (f ⟨s.place.ahead (g ++ (anc ++ ':' :: gap y)),
        opens ++ ("end".toList, ⟨first, s.place.ahead (g ++ (anc ++ [':']))⟩) :: (mid ++ s.groups)⟩) := by
  have hnext := Trail.ahead_rest h
  have hhead : ∀ c R', anc ++ ':' :: y = c :: R' → isBlank c = false := fun c R' => head_of_ancestry hanc
  rw [Cursor.ahead_append, Cursor.ahead_append s.place g]
  rcases hanc with rfl | ⟨v, rfl, hv⟩
  · obtain ⟨opens, hopens, hrun⟩ := run_ending (f := f) (s := s.ahead g) hnext
    refine ⟨opens, [], (s.ahead g).place, hopens, fun _ _ => rfl, ?_⟩
    rw [classTail, run_seqs_cons]
    refine run_blanks h hg hhead ?_
    rw [run_seqs_cons, ancestors, run_optional, run_group, run_seqs_cons,
      run_literal_none (by rw [hnext]; simp), hrun]
    rfl
  · have hopen : (s.ahead g).place.rest = '(' :: (v ++ ':' :: y) := hnext
    have hlist : ((s.ahead g).ahead ['(']).place.rest = v ++ ':' :: y := Trail.ahead_rest (r := ['(']) hopen
    obtain ⟨opens, hopens, hrun⟩ := run_ending (f := f)
      (s := ⟨((s.ahead g).ahead ('(' :: v)).place,
        ("end_name".toList, ⟨(s.ahead g).place, ((s.ahead g).ahead ('(' :: v)).place⟩) :: s.groups⟩)
      (Trail.ahead_rest (r := '(' :: v) hopen)
    refine ⟨opens, [("end_name".toList, ⟨(s.ahead g).place, ((s.ahead g).ahead ('(' :: v)).place⟩)],
      ((s.ahead g).ahead ('(' :: v)).place, hopens, fun name hne => find?_other hne.symm, ?_⟩
    rw [classTail, run_seqs_cons]
    refine run_blanks h hg hhead ?_
    rw [run_seqs_cons, ancestors, run_optional, run_group, run_seqs_cons, run_literal '(' hopen]
    refine orElse_of_some (star_lazy (r := v) hlist (fun _ _ => rfl) ?_ ?_)
    · rw [Cursor.ahead_append, Cursor.ahead_append]
      exact hrun
    · intro r₁ r₂ hr hne
      refine run_ending_none fun R hR => ?_
      rw [hr, List.append_assoc] at hlist
      have hthere := Trail.ahead_rest hlist
      obtain ⟨d, r₂, rfl⟩ := List.exists_cons_of_ne_nil hne
      cases hthere.symm.trans hR
      exact hv (by rw [hr]; simp)

theorem classPattern_eq : classPattern = seqs [group "indicator" (token "class"), plus true (chars .blank),
    group "name" (plus false (chars (.compl .blank))), classTail] := rfl

/-- A character of a name does not end it. -/
theorem classTail_none {c : Char} {R : Text} (hc : NameChar c) (h : s.place.rest = c :: R) :
    classTail.run s k = none := by
  rw [classTail, run_seqs_cons]
  refine star_none fun r R' hr hin => ?_
  obtain rfl : r = [] := by
    cases r with
    | nil => rfl
    | cons d r =>
      rw [h, List.cons_append, List.cons.injEq] at hr
      have hblank : isBlank d = true := hin d List.mem_cons_self
      rw [← hr.1, hc.1] at hblank
      cases hblank
  rw [Trail.ahead_nil, run_seqs_cons, ancestors, run_optional, run_group, run_seqs_cons,
    run_literal_none, run_ending_none]
  · rfl
  · intro R' hR
    rw [h] at hR
    cases hR
    exact hc.2.2 rfl
  · intro R' hR
    rw [h] at hR
    cases hR
    exact hc.2.1 rfl

theorem class_matchAt? {place : Cursor} {x y : Text} (h : place.rest = x ++ y) (hx : ClassSig x) :
    ∃ m, classPattern.matchAt? place = some m ∧ classGrammar.Matched m place x y := by
  obtain ⟨ws, n, ns, g, anc, rfl, hne, hws, hn, hns, hg, hanc⟩ := hx
  obtain ⟨w, ws, rfl⟩ := List.exists_cons_of_ne_nil hne
  have hword : place.rest = classWord ++ (w :: (ws ++ n :: (ns ++ (g ++ (anc ++ ':' :: y))))) := by
    rw [h]
    simp
  have hblanks := Cursor.ahead_rest hword
  have hname : ((place.ahead classWord).ahead (w :: ws)).rest = n :: (ns ++ (g ++ (anc ++ ':' :: y))) :=
    Cursor.ahead_rest (by rw [hblanks]; rfl)
  have htail : (((place.ahead classWord).ahead (w :: ws)).ahead (n :: ns)).rest = g ++ (anc ++ ':' :: y) :=
    Cursor.ahead_rest hname
  let groups : List (Text × Span) :=
    [("name".toList, ⟨(place.ahead classWord).ahead (w :: ws),
      ((place.ahead classWord).ahead (w :: ws)).ahead (n :: ns)⟩), ("indicator".toList, ⟨place, place.ahead classWord⟩)]
  obtain ⟨opens, mid, first, hopens, hmid, hrun⟩ := run_classTail
    (f := fun e => (⟨⟨place, e.place⟩, e.groups⟩ : Match)) (s := ⟨_, groups⟩) htail hg hanc
  refine ⟨_, ?_, matched_of_groups (g := classGrammar) (i := place.ahead classWord) (by decide) rfl (mid ++ groups) first
    h hopens ?_ ?_⟩
  · rw [matchAt?, classPattern_eq, run_seqs_cons, run_group]
    refine (run_token (t := classWord) hword).trans ?_
    rw [run_seqs_cons]
    refine plus_greedy (r := ws) hblanks hws ?_ ?_
    · rintro d R' hd
      cases hd
      exact hn
    rw [run_seqs_cons, run_group]
    refine plus_lazy (r := ns) hname ?_ (hrun.trans ?_) ?_
    · intro d hd
      rcases List.mem_cons.1 hd with rfl | hd
      · simp [CharSet.mem, hn]
      · simp [CharSet.mem, (hns d hd).1]
    · simp [Cursor.ahead_append, Cursor.ahead]
    · rintro r₁ r₂ rfl hne₂
      obtain ⟨d, r₂, rfl⟩ := List.exists_cons_of_ne_nil hne₂
      refine classTail_none (hns d (by simp)) (R := r₂ ++ (g ++ (anc ++ ':' :: y))) ?_
      exact Cursor.ahead_rest (r := n :: r₁) (hname.trans (by simp))
  · rw [List.find?_append, hmid _ (by decide)]
    rfl
  · rw [List.find?_append, hmid _ (by decide)]
    rfl

theorem exists_classTail (h : (classTail.run s k).isSome = true) :
    ∃ g anc y, s.place.rest = g ++ (anc ++ ':' :: y) ∧ Blank g ∧ (anc = [] ∨ ∃ v, anc = '(' :: v) := by
  rw [classTail, run_seqs_cons] at h
  obtain ⟨g, hg, hblank, h⟩ := exists_of_star h
  rw [run_seqs_cons, ancestors, run_optional, run_group, run_seqs_cons, Option.orElse_eq_orElse,
    Option.orElse_eq_or, Option.isSome_or, Bool.or_eq_true] at h
  rcases h with h | h
  · obtain ⟨hparen, h⟩ := exists_of_literal h
    obtain ⟨v, hv, -, h⟩ := exists_of_star h
    rw [run_seqs_cons, run_group] at h
    obtain ⟨hcolon, -⟩ := exists_of_literal h
    simp only [Trail.ahead_place, Trail.remember_place] at hg hparen hv hcolon
    exact ⟨g, '(' :: v, _, by rw [hg, hparen, hv, hcolon]; rfl, hblank, .inr ⟨v, rfl⟩⟩
  · rw [run_seqs_cons, run_group] at h
    obtain ⟨hcolon, -⟩ := exists_of_literal h
    exact ⟨g, [], _, hg.trans (congrArg (g ++ ·) hcolon), hblank, .inl rfl⟩

/-- Where the name of a class goes on to the colon, a signature ends. -/
theorem exists_ancestry {name g anc y : Text} (hname : ∀ c ∈ name, isBlank c = false) (hg : Blank g)
    (hanc : anc = [] ∨ ∃ v, anc = '(' :: v) :
    ∃ ns g' anc' y', name ++ (g ++ (anc ++ ':' :: y)) = ns ++ (g' ++ (anc' ++ ':' :: y')) ∧
      (∀ c ∈ ns, NameChar c) ∧ Blank g' ∧ Ancestry anc' := by
  induction name with
  | nil =>
    rcases hanc with rfl | ⟨v, rfl⟩
    · exact ⟨[], g, [], y, rfl, by simp, hg, .inl rfl⟩
    · obtain ⟨v', y', hv, hfirst⟩ := List.eq_append_cons_of_mem (show ':' ∈ v ++ ':' :: y by simp)
      refine ⟨[], g, '(' :: v', y', ?_, by simp, hg, .inr ⟨v', rfl, hfirst⟩⟩
      rw [List.cons_append, hv]
      rfl
  | cons c name ih =>
    by_cases hcolon : c = ':'
    · subst hcolon
      exact ⟨[], [], [], name ++ (g ++ (anc ++ ':' :: y)), rfl, by simp, .nil, .inl rfl⟩
    by_cases hparen : c = '('
    · subst hparen
      obtain ⟨v', y', hv, hfirst⟩ :=
        List.eq_append_cons_of_mem (show ':' ∈ name ++ (g ++ (anc ++ ':' :: y)) by simp)
      refine ⟨[], [], '(' :: v', y', ?_, by simp, .nil, .inr ⟨v', rfl, hfirst⟩⟩
      rw [List.cons_append, hv]
      rfl
    · obtain ⟨ns, g', anc', y', heq, hns, hg', hanc'⟩ := ih fun d hd => hname d (List.mem_cons_of_mem c hd)
      refine ⟨c :: ns, g', anc', y', by rw [List.cons_append, heq]; rfl, ?_, hg', hanc'⟩
      intro d hd
      rcases List.mem_cons.1 hd with rfl | hd
      · exact ⟨hname d List.mem_cons_self, hparen, hcolon⟩
      · exact hns d hd

theorem class_quiet {place : Cursor} (hquiet : classForm.Quiet place.rest) :
    classPattern.matchAt? place = none := by
  rw [← Option.not_isSome_iff_eq_none]
  intro h
  rw [matchAt?, classPattern_eq, run_seqs_cons, run_group] at h
  obtain ⟨hword, h⟩ := exists_of_token (t := classWord) h
  rw [run_seqs_cons] at h
  obtain ⟨w, ws, hblanks, hws, h⟩ := exists_of_plus h
  rw [run_seqs_cons, run_group] at h
  obtain ⟨n, name, hname, hin, h⟩ := exists_of_plus h
  obtain ⟨g, anc, y, htail, hg, hanc⟩ := exists_classTail h
  simp only [Trail.ahead_place, Trail.remember_place] at hword hblanks hname htail
  have hmarks : ∀ c ∈ n :: name, isBlank c = false := fun c hc => by simpa [CharSet.mem] using hin c hc
  obtain ⟨ns, g', anc', y', heq, hns, hg', hanc'⟩ :=
    exists_ancestry (y := y) (fun c hc => hmarks c (List.mem_cons_of_mem n hc)) hg hanc
  refine hquiet (classWord ++ (w :: ws ++ n :: (ns ++ (g' ++ (anc' ++ [':']))))) y' ?_
    ⟨w :: ws, n, ns, g', anc', rfl, by simp, hws, hmarks n List.mem_cons_self, hns, hg', hanc'⟩
  have hwhole : place.rest = classWord ++ (w :: ws ++ n :: (name ++ (g ++ (anc ++ ':' :: y)))) := by
    rw [hword, hblanks, hname, htail]
    rfl
  rw [hwhole, heq]
  simp

/-- **The pattern for classes reads the form of their signatures.** -/
theorem class_reads : classGrammar.Reads classForm where
  kind := by decide
  below := rfl
  quiet _ := class_quiet
  sig _ _ _ := class_matchAt?

/-! ## Methods -/

/-- What comes behind the arguments of a method. -/
def methodTail : Pattern := seqs [literal ')', blanks, group "end" (literal ':'), blanks, quotes? "open"]

theorem methodPattern_eq : methodPattern = seqs [group "indicator" (token "def"), plus true (chars .blank),
    group "name" (star false (chars .any)), blanks, literal '(', group "args" (star false (chars .any)), methodTail] :=
  rfl

theorem run_methodTail {g y : Text} (h : s.place.rest = ')' :: (g ++ ':' :: y)) (hg : Blank g) :
    ∃ (opens : List (Text × Span)) (first : Cursor), OpenGroup "open" y opens ∧
      methodTail.run s (fun e => some (f e)) = some (f ⟨s.place.ahead (')' :: (g ++ ':' :: gap y)),
        opens ++ ("end".toList, ⟨first, s.place.ahead (')' :: (g ++ [':']))⟩) :: s.groups⟩) := by
  have hblanks : (s.ahead [')']).place.rest = g ++ ':' :: y := Trail.ahead_rest (r := [')']) h
  obtain ⟨opens, hopens, hrun⟩ :=
    run_ending (f := f) (s := (s.ahead [')']).ahead g) (Trail.ahead_rest hblanks)
  refine ⟨opens, ((s.ahead [')']).ahead g).place, hopens, ?_⟩
  rw [methodTail, run_seqs_cons, run_literal ')' h, run_seqs_cons]
  refine run_blanks hblanks hg ?_ (hrun.trans ?_)
  · rintro c R' hc
    cases hc
    decide
  · simp [Cursor.ahead_append, Cursor.ahead]

theorem exists_methodTail (h : (methodTail.run s k).isSome = true) :
    ∃ g y, s.place.rest = ')' :: (g ++ ':' :: y) ∧ Blank g := by
  rw [methodTail, run_seqs_cons] at h
  obtain ⟨hparen, h⟩ := exists_of_literal h
  rw [run_seqs_cons] at h
  obtain ⟨g, hg, hblank, h⟩ := exists_of_star h
  rw [run_seqs_cons, run_group] at h
  obtain ⟨hcolon, -⟩ := exists_of_literal h
  exact ⟨g, _, by rw [hparen, hg, hcolon], hblank⟩

/-- Where a parenthesis, blanks and a colon follow, there is a first place
where they do. -/
theorem exists_closes {W q g r : Text} (hW : W = q ++ ')' :: (g ++ ':' :: r)) (hg : Blank g) :
    ∃ w R, W = w ++ R ∧ Closes w := by
  obtain ⟨n, hn⟩ : ∃ n, q.length + g.length ≤ n := ⟨_, Nat.le_refl _⟩
  induction n generalizing q g r with
  | zero =>
    refine ⟨q ++ ')' :: (g ++ [':']), r, by rw [hW]; simp, ⟨q, g, rfl, hg⟩, fun q' g' r' heq _ => ?_⟩
    have hlen := congrArg List.length heq
    simp only [List.length_append, List.length_cons, List.length_nil] at hlen
    exact List.eq_nil_of_length_eq_zero (by omega)
  | succ n ih =>
    by_cases hfirst : ∀ q' g' r', q ++ ')' :: (g ++ [':']) = q' ++ ')' :: (g' ++ ':' :: r') → Blank g' → r' = []
    · exact ⟨q ++ ')' :: (g ++ [':']), r, by rw [hW]; simp, ⟨q, g, rfl, hg⟩, hfirst⟩
    · simp only [Classical.not_forall] at hfirst
      obtain ⟨q', g', r', heq, hg', hr'⟩ := hfirst
      have hlen := congrArg List.length heq
      have hpos := List.length_pos_iff.2 hr'
      simp only [List.length_append, List.length_cons, List.length_nil] at hlen
      refine ih (q := q') (g := g') (r := r' ++ r) ?_ hg' (by omega)
      have hwhole : W = (q ++ ')' :: (g ++ [':'])) ++ r := by rw [hW]; simp
      rw [hwhole, heq]
      simp

theorem method_quiet {place : Cursor} (hquiet : methodForm.Quiet place.rest) :
    methodPattern.matchAt? place = none := by
  rw [← Option.not_isSome_iff_eq_none]
  intro h
  rw [matchAt?, methodPattern_eq, run_seqs_cons, run_group] at h
  obtain ⟨hword, h⟩ := exists_of_token (t := defWord) h
  rw [run_seqs_cons] at h
  obtain ⟨w, ws, hblanks, hws, h⟩ := exists_of_plus h
  rw [run_seqs_cons, run_group] at h
  obtain ⟨name, hname, -, h⟩ := exists_of_star h
  rw [run_seqs_cons] at h
  obtain ⟨b, hb, -, h⟩ := exists_of_star h
  rw [run_seqs_cons] at h
  obtain ⟨hopen, h⟩ := exists_of_literal h
  rw [run_seqs_cons, run_group] at h
  obtain ⟨args, hargs, -, h⟩ := exists_of_star h
  obtain ⟨g, y, hclose, hg⟩ := exists_methodTail h
  simp only [Trail.ahead_place, Trail.remember_place] at hword hblanks hname hb hopen hargs hclose
  obtain ⟨p, W, hp, hfirst⟩ := List.eq_append_cons_of_mem
    (show '(' ∈ (name ++ b) ++ '(' :: (args ++ ')' :: (g ++ ':' :: y)) by simp)
  -- The first parenthesis is there or before, so the arguments close behind it too.
  obtain ⟨q, hq⟩ : ∃ q, W = q ++ ')' :: (g ++ ':' :: y) := by
    obtain ⟨k, rfl⟩ := append_of_first hfirst hp.symm
    exact ⟨k ++ args, by simp⟩
  obtain ⟨u, R, rfl, hcloses⟩ := exists_closes hq hg
  refine hquiet (defWord ++ (w :: ws ++ (p ++ '(' :: u))) R ?_
    ⟨w :: ws, p, u, rfl, by simp, hws, hfirst, hcloses⟩
  have hwhole : place.rest = defWord ++ (w :: ws ++ ((name ++ b) ++ '(' :: (args ++ ')' :: (g ++ ':' :: y)))) := by
    rw [hword, hblanks, hname, hb, hopen, hargs, hclose]
    simp
  rw [hwhole, hp]
  simp

/-- Before the first place where the arguments close they do not. -/
theorem methodTail_none {q₁ q₂ g y : Text} (hcloses : Closes ((q₁ ++ q₂) ++ ')' :: (g ++ [':'])))
    (hne : q₂ ≠ []) (h : s.place.rest = q₂ ++ ')' :: (g ++ ':' :: y)) : methodTail.run s k = none := by
  rw [← Option.not_isSome_iff_eq_none]
  intro hsome
  obtain ⟨r, R, hr, hblank⟩ := exists_methodTail hsome
  obtain ⟨c, q₂, rfl⟩ := List.exists_cons_of_ne_nil hne
  rw [h, List.cons_append, List.cons.injEq] at hr
  obtain ⟨rfl, hr⟩ := hr
  -- The blanks do not reach over the closing parenthesis.
  rcases List.append_eq_append_iff.1 hr with ⟨m, rfl, hm⟩ | ⟨m, rfl, hm⟩
  · cases m with
    | nil => cases hm
    | cons d m =>
      rw [List.cons_append, List.cons.injEq] at hm
      refine absurd ?_ (not_mem_blank (c := ')') (by decide) hblank)
      rw [hm.1]
      simp
  · cases m with
    | nil => cases hm
    | cons d m =>
      rw [List.cons_append, List.cons.injEq] at hm
      obtain ⟨rfl, -⟩ := hm
      have hnil := hcloses.2 q₁ r (m ++ ')' :: (g ++ [':'])) (by simp) hblank
      simp at hnil

/-- A text without its last blanks. -/
theorem exists_trimmed (p : Text) :
    ∃ name b, p = name ++ b ∧ Blank b ∧ ∀ r₁ r₂, name = r₁ ++ r₂ → r₂ ≠ [] → ¬Blank r₂ := by
  induction p with
  | nil => exact ⟨[], [], rfl, .nil, by simp⟩
  | cons c p ih =>
    obtain ⟨name, b, rfl, hb, hname⟩ := ih
    by_cases hnil : name = [] ∧ isBlank c = true
    · obtain ⟨rfl, hc⟩ := hnil
      exact ⟨[], c :: b, rfl, by simpa [Blank, hc] using hb, by simp⟩
    · refine ⟨c :: name, b, rfl, hb, fun r₁ r₂ hr hne hblank => ?_⟩
      cases r₁ with
      | nil =>
        rw [List.nil_append] at hr
        subst hr
        have hc := hblank c List.mem_cons_self
        by_cases hempty : name = []
        · exact hnil ⟨hempty, hc⟩
        · exact hname [] name rfl hempty fun d hd => hblank d (List.mem_cons_of_mem c hd)
      | cons d r₁ =>
        rw [List.cons_append, List.cons.injEq] at hr
        exact hname r₁ r₂ hr.2 hne hblank

/-- What comes behind the name of a method. -/
def argumentsTail : Pattern :=
  seqs [blanks, literal '(', group "args" (star false (chars .any)), methodTail]

theorem run_argumentsTail {b q g y : Text} (h : s.place.rest = b ++ '(' :: (q ++ ')' :: (g ++ ':' :: y)))
    (hb : Blank b) (hg : Blank g) (hcloses : Closes (q ++ ')' :: (g ++ [':']))) :
    ∃ (opens mid : List (Text × Span)) (first : Cursor), OpenGroup "open" y opens ∧
      (∀ name : Text, name ≠ "args" → mid.find? (fun p => p.1 == name) = none) ∧
      argumentsTail.run s (fun e => some (f e)) =
        some (f ⟨s.place.ahead (b ++ '(' :: (q ++ ')' :: (g ++ ':' :: gap y))), opens ++
          ("end".toList, ⟨first, s.place.ahead (b ++ '(' :: (q ++ ')' :: (g ++ [':'])))⟩) :: (mid ++ s.groups)⟩) := by
  have hopen : (s.ahead b).place.rest = '(' :: (q ++ ')' :: (g ++ ':' :: y)) := Trail.ahead_rest h
  have hargs : ((s.ahead b).ahead ['(']).place.rest = q ++ ')' :: (g ++ ':' :: y) :=
    Trail.ahead_rest (r := ['(']) hopen
  let args : Text × Span :=
    ("args".toList, ⟨((s.ahead b).ahead ['(']).place, (((s.ahead b).ahead ['(']).ahead q).place⟩)
  obtain ⟨opens, first, hopens, hrun⟩ := run_methodTail (f := f)
    (s := ⟨(((s.ahead b).ahead ['(']).ahead q).place, args :: s.groups⟩) (Trail.ahead_rest hargs) hg
  refine ⟨opens, [args], first, hopens, fun name hne => find?_other hne.symm, ?_⟩
  rw [argumentsTail, run_seqs_cons]
  refine run_blanks h hb ?_ ?_
  · rintro c R' hc
    cases hc
    decide
  rw [run_seqs_cons, run_literal '(' hopen, run_seqs_cons, run_group]
  refine star_lazy (r := q) hargs (fun _ _ => rfl) (hrun.trans ?_) ?_
  · simp [Cursor.ahead_append, Cursor.ahead]
  · rintro q₁ q₂ rfl hne
    exact methodTail_none hcloses hne (Trail.ahead_rest (by rw [hargs, List.append_assoc]))

/-- Before the blanks that end a name, the arguments do not start. -/
theorem argumentsTail_none {r b R : Text} (h : s.place.rest = (r ++ b) ++ '(' :: R) (hb : Blank b)
    (hparen : '(' ∉ r) (hmark : ¬Blank r) : argumentsTail.run s k = none := by
  rw [argumentsTail, run_seqs_cons]
  refine star_none fun r' R' hr hin => ?_
  have hblank : Blank r' := hin
  rw [run_seqs_cons]
  refine run_literal_none fun R'' hR => ?_
  rw [Trail.ahead_rest hr] at hR
  rw [hr, hR] at h
  have heq := eq_of_first (not_mem_blank (by decide) hblank)
    (by simpa using ⟨hparen, not_mem_blank (by decide) hb⟩) h
  rw [heq, blank_append] at hblank
  exact hmark hblank.1

theorem method_matchAt? {place : Cursor} {x y : Text} (h : place.rest = x ++ y) (hx : MethodSig x) :
    ∃ m, methodPattern.matchAt? place = some m ∧ methodGrammar.Matched m place x y := by
  obtain ⟨ws, p, _, rfl, hne, hws, hp, hcloses⟩ := hx
  obtain ⟨q, g, rfl, hg⟩ := hcloses.1
  obtain ⟨w, ws, rfl⟩ := List.exists_cons_of_ne_nil hne
  -- The blanks in front of the name, the name, and the blanks behind it.
  obtain ⟨b₀, p', rfl, hb₀, hhead⟩ : ∃ b₀ p', p = b₀ ++ p' ∧ Blank b₀ ∧
      ∀ c R, p' ++ '(' :: (q ++ ')' :: (g ++ ':' :: y)) = c :: R → isBlank c = false := by
    refine ⟨p.takeWhile isBlank, p.dropWhile isBlank, List.takeWhile_append_dropWhile.symm,
      blank_takeWhile p, ?_⟩
    intro c R hc
    rcases dropWhile_blank_cases p with hnil | ⟨d, rest, hd, hblank⟩
    · rw [hnil] at hc
      cases hc
      decide
    · rw [hd] at hc
      cases hc
      exact hblank
  obtain ⟨name, b, rfl, hb, hname⟩ := exists_trimmed p'
  have hword : place.rest =
      defWord ++ (w :: ((ws ++ b₀) ++ ((name ++ b) ++ '(' :: (q ++ ')' :: (g ++ ':' :: y))))) := by
    rw [h]
    simp
  have hblanks := Cursor.ahead_rest hword
  have hafter : ((place.ahead defWord).ahead (w :: (ws ++ b₀))).rest =
      name ++ (b ++ '(' :: (q ++ ')' :: (g ++ ':' :: y))) :=
    Cursor.ahead_rest (by rw [hblanks]; simp)
  let groups : List (Text × Span) :=
    [("name".toList, ⟨(place.ahead defWord).ahead (w :: (ws ++ b₀)),
      ((place.ahead defWord).ahead (w :: (ws ++ b₀))).ahead name⟩), ("indicator".toList, ⟨place, place.ahead defWord⟩)]
  obtain ⟨opens, mid, first, hopens, hmid, hrun⟩ := run_argumentsTail
    (f := fun e => (⟨⟨place, e.place⟩, e.groups⟩ : Match)) (s := ⟨_, groups⟩) (Cursor.ahead_rest hafter) hb hg hcloses
  refine ⟨_, ?_, matched_of_groups (g := methodGrammar) (i := place.ahead defWord) (by decide) rfl (mid ++ groups) first
    h hopens ?_ ?_⟩
  · rw [matchAt?, methodPattern_eq, run_seqs_cons, run_group]
    refine (run_token (t := defWord) hword).trans ?_
    rw [run_seqs_cons]
    refine plus_greedy (r := ws ++ b₀) hblanks ?_ hhead ?_
    · exact (blank_append (a := w :: ws)).2 ⟨hws, hb₀⟩
    rw [run_seqs_cons, run_group]
    refine star_lazy (r := name) hafter (fun _ _ => rfl) (hrun.trans ?_) ?_
    · simp [Cursor.ahead_append, Cursor.ahead]
    · rintro r₁ r₂ rfl hne₂
      refine argumentsTail_none (r := r₂) (b := b) (R := q ++ ')' :: (g ++ ':' :: y)) ?_ hb ?_ (hname r₁ r₂ rfl hne₂)
      · exact Cursor.ahead_rest (r := r₁) (hafter.trans (by simp))
      · exact fun hmem => hp (by simp [hmem])
  · rw [List.find?_append, hmid _ (by decide)]
    rfl
  · rw [List.find?_append, hmid _ (by decide)]
    rfl

/-- **The pattern for methods reads the form of their signatures.** -/
theorem method_reads : methodGrammar.Reads methodForm where
  kind := by decide
  below := rfl
  quiet _ := method_quiet
  sig _ _ _ := method_matchAt?

/-! ## Headers -/

theorem header_matchAt? (t : Text) : ∃ groups, OpenGroup "doc" t groups ∧
    headerPattern.matchAt? (.start t) = some ⟨⟨.start t, (Cursor.start t).ahead (gap t)⟩, groups⟩ := by
  obtain ⟨groups, hgroups, hrun⟩ := run_gap (f := fun e => (⟨⟨.start t, e.place⟩, e.groups⟩ : Match)) "doc"
    (s := ⟨.start t, []⟩) (y := t) rfl
  rw [List.append_nil] at hrun
  exact ⟨groups, hgroups, hrun⟩

/-- Behind the start of a text no header is found. -/
theorem header_findFrom (c : Char) (offset : Nat) (t : Text) :
    headerPattern.findFrom (some c) offset t = none := by
  induction t generalizing c offset with
  | nil => rfl
  | cons d t ih => exact ih d _

theorem header_allMatches (t : Text) : ∃ groups, OpenGroup "doc" t groups ∧
    headerPattern.allMatches t = [⟨⟨.start t, (Cursor.start t).ahead (gap t)⟩, groups⟩] := by
  obtain ⟨groups, hgroups, hmatch⟩ := header_matchAt? t
  have hfind : headerPattern.find? (.start t) = some ⟨⟨.start t, (Cursor.start t).ahead (gap t)⟩, groups⟩ := by
    cases t with
    | nil => exact hmatch
    | cons c t =>
      rw [Pattern.find?, Cursor.start, Pattern.findFrom]
      rw [Cursor.start] at hmatch
      rw [hmatch]
  have hnext : headerPattern.findNext? ((Cursor.start t).ahead (gap t)) = none := by
    cases hgap : gap t with
    | nil =>
      rw [hgap] at hfind
      rw [Cursor.ahead, Pattern.findNext?, hfind]
      cases t with
      | nil => rfl
      | cons c t => exact header_findFrom c _ t
    | cons c r =>
      obtain ⟨d, hd⟩ := Cursor.ahead_prev (.start t) c r
      rw [Pattern.findNext?, Pattern.find?, hd, header_findFrom]
  refine ⟨groups, hgroups, ?_⟩
  rw [Pattern.allMatches, hfind]
  cases t.length with
  | zero => rfl
  | succ fuel => simp only [Pattern.matchesAfter, hnext]

/-- **A text has a header to be documented exactly when no docstring opens
it.** -/
theorem header_found (file : Path) (t : Text) (history : LineHistory) :
    ∃ m, (headerGrammar.findings file t none history).filterMap Finding.candidate? =
      if opened t then [] else [headerGrammar.candidateOf file t 1 m ⟨.start t, .start t⟩] := by
  obtain ⟨groups, hgroups, hall⟩ := header_allMatches t
  let m : Match := ⟨⟨.start t, (Cursor.start t).ahead (gap t)⟩, groups⟩
  have hsigned : headerGrammar.signed t = [(m, ⟨.start t, .start t⟩)] := by
    rw [Grammar.signed, show headerGrammar.pattern = headerPattern from rfl, hall]
    rfl
  have hline : t.lineOf 0 = 1 := Text.lineOf_append [] t
  have hline' : (LineTable.ofText t).lineOf 0 = 1 := by rw [LineTable.lineOf_ofText, hline]
  have howner : headerGrammar.ownerIn t (t.lineOf 0) = some 0 := by
    rw [Grammar.ownerIn, Grammar.signatures_eq_map_signed, hsigned, hline, Grammar.anchored]
    show ((List.filter _ [((LineTable.ofText t).lineOf 0, 0)]).head?).map _ = some 0
    rw [hline']
    rfl
  have hdoc : (m.group? headerGrammar.documentedGroup).isSome = opened t := by
    rw [Match.group?, Option.isSome_map]
    exact hgroups.isSome
  refine ⟨m, ?_⟩
  rw [Grammar.findings_eq, hsigned, List.map_singleton, List.filterMap_cons, List.filterMap_nil]
  cases hopen : opened t with
  | true =>
    have hnone : (headerGrammar.judge file t (LineTable.ofText t) (headerGrammar.ownerIn t)
        (Grammar.touched none history) m ⟨.start t, .start t⟩).candidate? = none := by
      rw [Option.eq_none_iff_forall_not_mem]
      intro c hc
      have hclosed := (Grammar.judge_candidate?.1 hc).1
      rw [hdoc, hopen] at hclosed
      cases hclosed
    simp only [hnone]
    rfl
  | false =>
    have hsome : (headerGrammar.judge file t (LineTable.ofText t) (headerGrammar.ownerIn t)
        (Grammar.touched none history) m ⟨.start t, .start t⟩).candidate? =
          some (headerGrammar.candidateOf file t (t.lineOf 0) m ⟨.start t, .start t⟩) :=
      Grammar.judge_candidate?.2 ⟨hdoc.trans hopen, howner, rfl, rfl, rfl⟩
    simp only [hsome, hline]
    rfl

set_option maxRecDepth 100000 in
/-- The opening delimiter can be read alone. -/
theorem parse_openPattern (kind : Kind) : parse (shape kind).openPattern = .ok (token "\"\"\"") := by
  cases kind <;> exact eq_ok_of_toOption (by decide)

theorem shape_readAlone {kind : Kind} (hk : kind ≠ .header) : (shape kind).ReadAlone where
  construct := hk
  indicator := by simp [shape]
  ending := by simp [shape]
  ancestry := by simp [shape]
  arguments a ha := by
    cases kind with
    | method => exact Option.some.inj ha ▸ rfl
    | _ => cases ha
  delimiter := ⟨fun _ => ⟨_, parse_openPattern kind⟩, fun hb => by cases kind <;> simp_all [shape]⟩

/-- The tokens of Python are read alone. -/
theorem plan_readAlone : ∀ k ∈ plan.kinds, k.grammar.ReadAlone := by
  have hclass : Grammar.ofShape (shape .classDef) = .ok classGrammar := by
    simp only [Grammar.ofShape, parse_class]
    rfl
  have hmethod : Grammar.ofShape (shape .method) = .ok methodGrammar := by
    simp only [Grammar.ofShape, parse_method]
    rfl
  simp only [plan, List.forall_mem_cons, List.not_mem_nil, false_implies, implies_true, and_true]
  exact ⟨.header (by decide), .construct (shape_readAlone (by simp)) hclass, .construct (shape_readAlone (by simp)) hmethod⟩

theorem plan_ordered : ∀ k ∈ plan.kinds, ∀ t, k.grammar.OrderedIn t := fun k hk => (plan_readAlone k hk).orderedIn

end Python
end DocScribe
