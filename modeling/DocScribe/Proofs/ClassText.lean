/-
Classes in brackets carry what follows (`bracketClass_carries`).

The text of a class is read part by part. `classPart` is one part, and
`classBody` reads parts until the outermost bracket is closed
(`classBody_succ`).
-/
import DocScribe.Proofs.EscapeText

namespace DocScribe
namespace Pattern

variable {f : Flags} {u v : Text}

/-- One more hyphen. -/
def hyphenStep (s : CharSet) (c : Char) : Option CharSet := if c = '-' then some (.union s (.single '-')) else none

/-- What stands for itself at the start of a bracket. -/
def classStart (f : Flags) (frame : ClassFrame) (t : Text) : (ClassFrame × CharSet) × Text :=
  match t with
  | ']' :: after => ((frame, .single ']'), f.skip after)
  | t => ((frame, (consume f hyphenStep t.length t .nothing).1), (consume f hyphenStep t.length t .nothing).2)

/-- The start of a bracket. -/
def classSign (f : Flags) (outer : CharSet) (t : Text) : (ClassFrame × CharSet) × Text :=
  match t with
  | '^' :: rest => classStart f ⟨true, none, outer⟩ (f.skip rest)
  | t => classStart f ⟨false, none, outer⟩ t

theorem classStart_cons (f : Flags) (frame : ClassFrame) {c : Char} (h : c ≠ ']') (t : Text) :
    classStart f frame (c :: t) =
      ((frame, (consume f hyphenStep (c :: t).length (c :: t) .nothing).1),
        (consume f hyphenStep (c :: t).length (c :: t) .nothing).2) := by
  simp [classStart, h]

theorem classStart_eq (f : Flags) (frame : ClassFrame) (t : Text) :
    (match leadingHyphens f t.length t .nothing with
      | (s, rest) => match rest with
        | ']' :: after => if rest.length = t.length then (frame, CharSet.single ']', f.skip after) else (frame, s, rest)
        | _ => (frame, s, rest)) =
      ((classStart f frame t).1.1, (classStart f frame t).1.2, (classStart f frame t).2) := by
  have hhyphens : leadingHyphens f t.length t .nothing = consume f hyphenStep t.length t .nothing :=
    leadingHyphens_eq ..
  rw [hhyphens]
  cases t with
  | nil => rfl
  | cons c t =>
    by_cases hbracket : c = ']'
    · subst hbracket
      simp [consume, hyphenStep, classStart]
    · by_cases hhyphen : c = '-'
      · subst hhyphen
        -- A hyphen was taken, so a bracket behind it closes the class.
        have hlen : (consume f hyphenStep ('-' :: t).length ('-' :: t) .nothing).2.length ≠ ('-' :: t).length := by
          have h1 := consume_length (f := f) (s := .union .nothing (.single '-')) (t := f.skip t) hyphenStep t.length
          have h2 := f.skip_length t
          have hstep : consume f hyphenStep ('-' :: t).length ('-' :: t) .nothing =
              consume f hyphenStep t.length (f.skip t) (.union .nothing (.single '-')) := rfl
          rw [hstep, List.length_cons]
          omega
        rw [classStart_cons f frame (by decide)]
        generalize consume f hyphenStep ('-' :: t).length ('-' :: t) .nothing = r at hlen
        obtain ⟨s, rest⟩ := r
        dsimp only
        split
        · rw [if_neg hlen]
        · rfl
      · rw [classStart_cons f frame hbracket]
        simp [consume, hyphenStep, hbracket, hhyphen]

theorem openClass_eq (f : Flags) (outer : CharSet) (t : Text) :
    openClass f outer t =
      ((classSign f outer (f.skip t)).1.1, (classSign f outer (f.skip t)).1.2, (classSign f outer (f.skip t)).2) := by
  unfold openClass
  cases f.skip t with
  | nil => exact classStart_eq f ⟨false, none, outer⟩ []
  | cons c rest =>
    by_cases hc : c = '^'
    · subst hc
      exact classStart_eq f ⟨true, none, outer⟩ (f.skip rest)
    · have hplain : classSign f outer (c :: rest) = classStart f ⟨false, none, outer⟩ (c :: rest) := by
        simp [classSign, hc]
      rw [hplain]
      conv =>
        lhs
        simp [hc]
      exact classStart_eq f ⟨false, none, outer⟩ (c :: rest)

theorem classStart_carries (f : Flags) (frame : ClassFrame) (u : Text) :
    Carries (fun t => .ok (classStart f frame t)) u (classStart f frame u).1 (classStart f frame u).2 := by
  have hrow := consume_carries f hyphenStep (fun s => rfl) u .nothing
  have hframe := hrow.map fun s => (frame, s)
  cases u with
  | nil => exact hframe.congr rfl fun K => rfl
  | cons c t =>
    by_cases hc : c = ']'
    · subst hc
      exact .cons (fun t => rfl) (Carries.pure (frame, CharSet.single ']') _).skip
    · rw [classStart_cons f frame hc]
      refine hframe.congr ?_ fun K => ?_
      · rw [classStart_cons f frame hc]
        rfl
      · rw [List.cons_append, classStart_cons f frame hc]
        rfl

theorem classSign_carries (f : Flags) (outer : CharSet) (u : Text) :
    Carries (fun t => .ok (classSign f outer t)) u (classSign f outer u).1 (classSign f outer u).2 := by
  have hstart := classStart_carries f ⟨false, none, outer⟩ u
  cases u with
  | nil => exact hstart.congr rfl fun K => rfl
  | cons c t =>
    by_cases hc : c = '^'
    · subst hc
      exact .cons (fun t => rfl) (classStart_carries f ⟨true, none, outer⟩ (f.skip t)).skip
    · have heq : ∀ t, classSign f outer (c :: t) = classStart f ⟨false, none, outer⟩ (c :: t) := fun t => by
        simp [classSign, hc]
      rw [heq]
      exact hstart.congr (by rw [heq]) fun K => by rw [List.cons_append, heq]

/-- A class by name, from the end of its name on. -/
def namedClass? (negated : Bool) (name : Text) (t : Text) : Option (Bool × CharSet × Text) :=
  match t with
  | ':' :: ']' :: rest => (CharSet.posix? name).map fun s => (negated, s, rest)
  | _ => none

theorem posix?_close {name : Text} (h : ')' ∈ name) : CharSet.posix? name = none := by
  have hname : ∀ s : String, ')' ∉ s.toList → String.ofList name ≠ s := by
    rintro s hs rfl
    exact hs (by simpa using h)
  unfold CharSet.posix?
  split
  case h_15 => rfl
  all_goals
    next heq => exact absurd heq (hname _ (by decide))

theorem posixClass?_eq (t : Text) :
    posixClass? t =
      match t with
      | ':' :: '^' :: t => namedClass? true (t.takeWhile (· != ':')) (t.dropWhile (· != ':'))
      | ':' :: t => namedClass? false (t.takeWhile (· != ':')) (t.dropWhile (· != ':'))
      | _ => none := by
  unfold posixClass?
  split
  · next t =>
    cases t with
    | nil => rfl
    | cons c t =>
      by_cases hc : c = '^'
      · subst hc
        rfl
      · simp [hc]
        rfl
  · next h =>
    split
    · exact absurd rfl (h _)
    · exact absurd rfl (h _)
    · rfl

/-- A class by name is complete before a closing parenthesis or not at all. -/
theorem namedClass?_close (negated : Bool) (u K : Text) :
    namedClass? negated ((u ++ ')' :: K).takeWhile (· != ':')) ((u ++ ')' :: K).dropWhile (· != ':')) =
      (namedClass? negated (u.takeWhile (· != ':')) (u.dropWhile (· != ':'))).map
        fun r => (r.1, r.2.1, r.2.2 ++ ')' :: K) := by
  have hsplit := List.takeWhile_append_dropWhile (p := (· != ':')) (l := u)
  rw [List.dropWhile_append, List.takeWhile_append]
  cases hd : u.dropWhile (· != ':') with
  | nil =>
    rw [hd, List.append_nil] at hsplit
    have hname : ')' ∈ u ++ (')' :: K).takeWhile (· != ':') := by simp
    simp only [hsplit, if_true, List.isEmpty_nil]
    simp only [namedClass?, posix?_close hname, Option.map_none]
    split <;> rfl
  | cons d q =>
    have hlen : (u.takeWhile (· != ':')).length ≠ u.length := by
      intro h
      have := congrArg List.length hsplit
      rw [List.length_append, hd, List.length_cons] at this
      omega
    rw [if_neg hlen, if_neg (by simp)]
    cases q with
    | nil => simp [namedClass?]
    | cons e r =>
      by_cases hd : d = ':'
      · by_cases he : e = ']'
        · subst hd he
          simp only [namedClass?, List.cons_append, Option.map_map]
          rfl
        · simp [namedClass?, he]
      · simp [namedClass?, hd]

theorem posixClass?_close (u K : Text) :
    posixClass? (u ++ ')' :: K) = (posixClass? u).map fun r => (r.1, r.2.1, r.2.2 ++ ')' :: K) := by
  rw [posixClass?_eq, posixClass?_eq]
  match u with
  | [] => rfl
  | c :: u =>
    by_cases hc : c = ':'
    · subst hc
      match u with
      | [] => exact namedClass?_close false [] K
      | d :: u =>
        by_cases hd : d = '^'
        · subst hd
          exact namedClass?_close true u K
        · have := namedClass?_close false (d :: u) K
          simpa [hd] using this
    · simp [hc]

theorem namedClass?_length {negated b : Bool} {name : Text} {s : CharSet}
    (h : namedClass? b name u = some (negated, s, v)) : v.length ≤ u.length := by
  unfold namedClass? at h
  split at h
  · obtain ⟨_, -, heq⟩ := Option.map_eq_some_iff.1 h
    cases heq
    simp only [List.length_cons]
    omega
  · cases h

theorem posixClass?_length {negated : Bool} {s : CharSet} (h : posixClass? u = some (negated, s, v)) :
    v.length ≤ u.length := by
  have hdrop : ∀ t : Text, (t.dropWhile (· != ':')).length ≤ t.length := fun t => (List.dropWhile_sublist _).length_le
  rw [posixClass?_eq] at h
  split at h
  · have := Nat.le_trans (namedClass?_length h) (hdrop _)
    simp only [List.length_cons]
    omega
  · exact Nat.le_succ_of_le (Nat.le_trans (namedClass?_length h) (hdrop _))
  · cases h

theorem classAtom_carries {a : Atom} (h : classAtom f u = .ok (a, v)) : Carries (classAtom f) u a v := by
  cases u with
  | nil => cases h
  | cons c t =>
    by_cases hc : c = '\\'
    · subst hc
      exact .cons (fun t => rfl) (escape_carries h)
    · exact .one (z := .ok (.char c false)) (fun t => by simp only [classAtom]; rfl) h

/-- The set of a range. -/
def rangeOf (f : Flags) (low high : Atom) : Except Fault CharSet := do
  let lo ← boundOf f low
  let hi ← boundOf f high
  if lo.toNat ≤ hi.toNat then .ok (.range lo hi) else .error .badRange

theorem range_eq (f : Flags) (low high : Atom) (t : Text) :
    (do
      let lo ← boundOf f low
      let hi ← boundOf f high
      if lo.toNat ≤ hi.toNat then .ok (CharSet.range lo hi, t) else .error .badRange) =
      (rangeOf f low high).map (·, t) := by
  unfold rangeOf
  cases boundOf f low with
  | error e => rfl
  | ok lo =>
    cases boundOf f high with
    | error e => rfl
    | ok hi =>
      simp only [bind, Except.bind]
      split <;> rfl

/-- What follows the first item of a range, or an item alone. -/
def classRest (f : Flags) (low : Atom) (t : Text) : Except Fault (CharSet × Text) :=
  match t with
  | [] => .error .unclosedClass
  | '-' :: rest =>
    match f.skip rest with
    | [] => .error .unclosedClass
    | c :: after =>
      if c = ']' ∨ c = '-' then (setOf f low).map (·, '-' :: rest)
      else (classAtom f (c :: after)).bind fun r => (rangeOf f low r.1).map (·, r.2)
  | t => (setOf f low).map (·, t)

theorem classItem_eq (f : Flags) (t : Text) :
    classItem f t = (classAtom f t).bind fun r => classRest f r.1 (f.skip r.2) := by
  refine congrArg (Except.bind (classAtom f t)) (funext fun r => ?_)
  obtain ⟨low, t⟩ := r
  dsimp only
  unfold classRest
  cases f.skip t with
  | nil => rfl
  | cons c rest =>
    by_cases hc : c = '-'
    · subst hc
      cases hrest : f.skip rest with
      | nil => simp [hrest]
      | cons d after =>
        by_cases hd : d = ']'
        · subst hd
          simp only [hrest, true_or, if_true]
          cases setOf f low <;> rfl
        · by_cases hd' : d = '-'
          · subst hd'
            simp only [hrest, or_true, if_true]
            cases setOf f low <;> rfl
          · simp only [hrest, hd, hd', or_self, if_false]
            split
            · next heq => exact absurd (List.cons.inj heq).1 hd
            · next heq => exact absurd (List.cons.inj heq).1 hd'
            · next heq => cases heq
            · exact congrArg (Except.bind (classAtom f (d :: after))) (funext fun r => range_eq f low r.1 r.2)
    · simp [hc]
      cases setOf f low <;> rfl

theorem classRest_carries {low : Atom} {a : CharSet} (h : classRest f low u = .ok (a, v)) :
    Carries (classRest f low) u a v := by
  cases u with
  | nil => cases h
  | cons c rest =>
    by_cases hc : c = '-'
    · subst hc
      cases hrest : f.skip rest with
      | nil =>
        simp only [classRest, hrest] at h
        cases h
      | cons d after =>
        have heq : ∀ s, classRest f low ('-' :: (rest ++ s)) =
            if d = ']' ∨ d = '-' then (setOf f low).map (·, '-' :: (rest ++ s))
            else (classAtom f (d :: (after ++ s))).bind fun r => (rangeOf f low r.1).map (·, r.2) := fun s => by
          simp only [classRest, Flags.skip_cons_append hrest]
        have hself := heq []
        rw [List.append_nil, List.append_nil] at hself
        rw [hself] at h
        split at h
        · next hd =>
          refine (Carries.result h).congr (by rw [hself, if_pos hd]) fun K => ?_
          rw [List.cons_append, heq, if_pos hd]
        · next hd =>
          obtain ⟨⟨high, w⟩, hhigh, hrange⟩ := bind_ok_iff.1 h
          have hlen := hrest ▸ f.skip_length rest
          refine ((classAtom_carries hhigh).bind (z := fun high t => (rangeOf f low high).map (·, t)) (.result hrange)).via
            (Nat.le_succ_of_le hlen) (by rw [hself, if_neg hd]) fun K => ?_
          rw [List.cons_append, heq, if_neg hd]
          rfl
    · have heq : ∀ t, classRest f low (c :: t) = (setOf f low).map (·, c :: t) := fun t => by simp [classRest, hc]
      rw [heq] at h
      exact (Carries.result h).congr (heq _) fun K => heq _

theorem classItem_carries {a : CharSet} (h : classItem f u = .ok (a, v)) : Carries (classItem f) u a v := by
  rw [classItem_eq] at h
  obtain ⟨⟨low, w⟩, hlow, h⟩ := bind_ok_iff.1 h
  exact ((classAtom_carries hlow).bind (z := fun low t => classRest f low (f.skip t)) (classRest_carries h).skip).congr
    (classItem_eq ..) fun K => classItem_eq ..

/-- An operation between two parts of the innermost bracket. -/
def classOperate (f : Flags) (frames : List ClassFrame) (union : CharSet) (op : ClassOp) :
    Except Fault (CharSet ⊕ List ClassFrame × CharSet) :=
  match frames with
  | [] => .error .unclosedClass
  | frame :: outer => .ok (.inr ({ frame with pending := some (op, frame.combine f union) } :: outer, .nothing))

/-- The innermost bracket closed. -/
def classClose (f : Flags) (frames : List ClassFrame) (union : CharSet) :
    Except Fault (CharSet ⊕ List ClassFrame × CharSet) :=
  match frames with
  | [] => .error .unclosedClass
  | [frame] => (frame.close f union).map .inl
  | frame :: outer => (frame.close f union).map fun s => .inr (outer, .union frame.outer s)

/-- What follows an opening bracket inside a class. -/
def classOpen (f : Flags) (frames : List ClassFrame) (union : CharSet) (t : Text) :
    Except Fault ((CharSet ⊕ List ClassFrame × CharSet) × Text) :=
  match posixClass? t with
  | some (negated, s, rest) =>
    (f.checked (if negated then .compl (f.fold s) else f.fold s)).map fun s => (.inr (frames, .union union s), rest)
  | none =>
    if frames.length ≥ 250 then .error .tooDeep
    else .ok (.inr ((openClass f union t).1 :: frames, (openClass f union t).2.1), (openClass f union t).2.2)

/-- One part of a class: the finished set, or the open brackets and the union
to go on with. -/
def classPart (f : Flags) (frames : List ClassFrame) (union : CharSet) (t : Text) :
    Except Fault ((CharSet ⊕ List ClassFrame × CharSet) × Text) :=
  match t with
  | [] => .error .unclosedClass
  | '[' :: rest => classOpen f frames union rest
  | ']' :: rest => (classClose f frames union).map (·, rest)
  | '&' :: '&' :: rest => (classOperate f frames union .inter).map (·, rest)
  | '-' :: '-' :: rest => (classOperate f frames union .diff).map (·, rest)
  | '~' :: '~' :: rest => (classOperate f frames union .symmDiff).map (·, rest)
  | t => (classItem f t).map fun r => (.inr (frames, .union union r.1), r.2)

/-- A class from one of its parts on. -/
def classOn (f : Flags) (n : Nat) (r : CharSet ⊕ List ClassFrame × CharSet) (t : Text) : Except Fault (CharSet × Text) :=
  match r with
  | .inl s => .ok (s, t)
  | .inr (frames, union) => classBody f n frames union t

theorem classBody_succ (f : Flags) (n : Nat) (frames : List ClassFrame) (union : CharSet) (t : Text) :
    classBody f (n + 1) frames union t =
      (classPart f frames union (f.skip t)).bind fun r => classOn f n r.1 r.2 := by
  have hoperate : ∀ (op : ClassOp) (rest : Text), (match frames with
      | [] => .error .unclosedClass
      | frame :: outer =>
        classBody f n ({ frame with pending := some (op, frame.combine f union) } :: outer) .nothing rest) =
      ((classOperate f frames union op).map (·, rest)).bind fun r => classOn f n r.1 r.2 := by
    intro op rest
    cases frames <;> rfl
  rw [classBody]
  generalize f.skip t = t
  dsimp only
  split
  · rfl
  · next rest =>
    simp only [classPart, classOpen]
    cases posixClass? rest with
    | none =>
      dsimp only
      split <;> rfl
    | some r =>
      obtain ⟨negated, s, rest⟩ := r
      dsimp only
      cases f.checked (if negated then .compl (f.fold s) else f.fold s) <;> rfl
  · next rest =>
    clear hoperate
    cases frames with
    | nil => rfl
    | cons frame outer =>
      cases outer with
      | nil =>
        simp only [classPart, classClose]
        cases frame.close f union <;> rfl
      | cons _ _ =>
        simp only [classPart, classClose]
        cases frame.close f union <;> rfl
  · exact hoperate .inter _
  · exact hoperate .diff _
  · exact hoperate .symmDiff _
  · next h1 h2 h3 h4 h5 h6 =>
    have hitem : classPart f frames union t = (classItem f t).map fun r => (.inr (frames, .union union r.1), r.2) := by
      unfold classPart
      split
      · exact absurd rfl h1
      · exact absurd rfl (h2 _)
      · exact absurd rfl (h3 _)
      · exact absurd rfl (h4 _)
      · exact absurd rfl (h5 _)
      · exact absurd rfl (h6 _)
      · rfl
    rw [hitem]
    cases classItem f t <;> rfl

/-- Only the first character, or two equal ones, tell the parts apart. -/
theorem classPart_item (f : Flags) (frames : List ClassFrame) (union : CharSet) {c : Char}
    (h : c ≠ '[' ∧ c ≠ ']') (t : Text) (hop : ∀ d t', t = d :: t' → d = c → c ≠ '&' ∧ c ≠ '-' ∧ c ≠ '~') :
    classPart f frames union (c :: t) =
      (classItem f (c :: t)).map fun r => (.inr (frames, .union union r.1), r.2) := by
  unfold classPart
  split
  · next heq => cases heq
  · next heq => exact absurd (List.cons.inj heq).1 h.1
  · next heq => exact absurd (List.cons.inj heq).1 h.2
  · next heq =>
    obtain ⟨rfl, rfl⟩ := List.cons.inj heq
    exact absurd rfl (hop _ _ rfl rfl).1
  · next heq =>
    obtain ⟨rfl, rfl⟩ := List.cons.inj heq
    exact absurd rfl (hop _ _ rfl rfl).2.1
  · next heq =>
    obtain ⟨rfl, rfl⟩ := List.cons.inj heq
    exact absurd rfl (hop _ _ rfl rfl).2.2
  · rfl

theorem classOpen_carries {frames : List ClassFrame} {union : CharSet} {a : CharSet ⊕ List ClassFrame × CharSet}
    (h : classOpen f frames union u = .ok (a, v)) : Carries (classOpen f frames union) u a v := by
  cases hposix : posixClass? u with
  | some r =>
    obtain ⟨negated, s, rest⟩ := r
    have heq : ∀ t rest, posixClass? t = some (negated, s, rest) → classOpen f frames union t =
        ((f.checked (if negated then .compl (f.fold s) else f.fold s)).map
          fun s => Sum.inr (frames, CharSet.union union s)).map (·, rest) := fun t rest ht => by
      simp only [classOpen, ht]
      cases f.checked (if negated then .compl (f.fold s) else f.fold s) <;> rfl
    rw [heq u rest hposix] at h
    exact (Carries.result h).via (posixClass?_length hposix) (heq u rest hposix)
      fun K => heq _ _ (by rw [posixClass?_close, hposix]; rfl)
  | none =>
    have heq : ∀ t, posixClass? t = none → classOpen f frames union t =
        if frames.length ≥ 250 then .error .tooDeep
        else .ok (Sum.inr ((classSign f union (f.skip t)).1.1 :: frames, (classSign f union (f.skip t)).1.2),
          (classSign f union (f.skip t)).2) := fun t ht => by
      simp only [classOpen, ht, openClass_eq]
    have hclose : ∀ K, posixClass? (u ++ ')' :: K) = none := fun K => by rw [posixClass?_close, hposix]; rfl
    rw [heq u hposix] at h
    split at h
    · cases h
    · next hdeep =>
      cases h
      refine ((classSign_carries f union (f.skip u)).skip.map fun r => Sum.inr (r.1 :: frames, r.2)).congr ?_ fun K => ?_
      · rw [heq u hposix, if_neg hdeep]
        rfl
      · rw [heq _ (hclose K), if_neg hdeep]
        rfl

theorem classPart_carries {frames : List ClassFrame} {union : CharSet} {a : CharSet ⊕ List ClassFrame × CharSet}
    (h : classPart f frames union u = .ok (a, v)) : Carries (classPart f frames union) u a v := by
  cases u with
  | nil => cases h
  | cons c t =>
    by_cases hopen : c = '['
    · subst hopen
      exact .cons (fun t => rfl) (classOpen_carries h)
    by_cases hclose : c = ']'
    · subst hclose
      exact .one (fun t => rfl) h
    by_cases hop : ∀ d t', t = d :: t' → d = c → c ≠ '&' ∧ c ≠ '-' ∧ c ≠ '~'
    · have hitem := classPart_item f frames union ⟨hopen, hclose⟩
      rw [hitem t hop] at h
      cases hs : classItem f (c :: t) with
      | error e =>
        rw [hs] at h
        cases h
      | ok r =>
        rw [hs] at h
        cases h
        refine ((classItem_carries hs).map fun s => Sum.inr (frames, CharSet.union union s)).congr (hitem t hop)
          fun K => hitem _ fun d t' ht hd => ?_
        cases t with
        | nil =>
          obtain ⟨rfl, -⟩ := List.cons.inj ht
          subst hd
          decide
        | cons e t =>
          obtain ⟨rfl, -⟩ := List.cons.inj ht
          exact hop e t rfl hd
    · -- Two equal characters that stand for an operation.
      simp only [Classical.not_forall] at hop
      obtain ⟨d, t, rfl, rfl, hd⟩ := hop
      by_cases hand : d = '&'
      · subst hand
        exact .cons (fun _ => rfl) (.one (x := fun t => classPart f frames union ('&' :: t)) (fun t => rfl) h)
      by_cases hdiff : d = '-'
      · subst hdiff
        exact .cons (fun _ => rfl) (.one (x := fun t => classPart f frames union ('-' :: t)) (fun t => rfl) h)
      · obtain rfl : d = '~' := Classical.not_not.1 fun htilde => hd ⟨hand, hdiff, htilde⟩
        exact .cons (fun _ => rfl) (.one (x := fun t => classPart f frames union ('~' :: t)) (fun t => rfl) h)

theorem classBody_carries {n : Nat} {frames : List ClassFrame} {union a : CharSet}
    (h : classBody f n frames union u = .ok (a, v)) : Carries (classBody f n frames union) u a v := by
  induction n generalizing frames union u with
  | zero => cases h
  | succ n ih =>
    rw [classBody_succ] at h
    obtain ⟨⟨r, w⟩, hpart, hon⟩ := bind_ok_iff.1 h
    have hrest : Carries (classOn f n r) w a v := by
      cases r with
      | inl s =>
        cases hon
        exact .pure _ _
      | inr r => exact ih hon
    exact ((classPart_carries hpart).skip.bind hrest).congr (classBody_succ ..) fun K => classBody_succ ..

theorem classBody_mono {n m : Nat} {frames : List ClassFrame} {union : CharSet} {r : CharSet × Text} (hnm : n ≤ m)
    (h : classBody f n frames union u = .ok r) : classBody f m frames union u = .ok r := by
  induction n generalizing frames union u m with
  | zero => cases h
  | succ n ih =>
    obtain ⟨m, rfl⟩ : ∃ k, m = k + 1 := ⟨m - 1, by omega⟩
    rw [classBody_succ] at h ⊢
    obtain ⟨⟨b, w⟩, hpart, hon⟩ := bind_ok_iff.1 h
    refine bind_ok_iff.2 ⟨_, hpart, ?_⟩
    cases b with
    | inl s => exact hon
    | inr b => exact ih (by omega) hon

theorem bracketClass_carries {a : CharSet} (h : bracketClass f u = .ok (a, v)) : Carries (bracketClass f) u a v := by
  have heq : ∀ t, bracketClass f t = (Except.ok (classSign f .nothing (f.skip t))).bind fun r =>
      classBody f (t.length + 1) [r.1.1] r.1.2 r.2 := fun t => by
    rw [bracketClass, openClass_eq]
    rfl
  rw [heq] at h
  have hbody := (classSign_carries f .nothing (f.skip u)).skip.bind (z := fun r t => classBody f (u.length + 1) [r.1] r.2 t)
    (classBody_carries h)
  refine hbody.mono fun s r hr => ?_
  rw [heq]
  exact classBody_mono (by simp) hr

end Pattern
end DocScribe
