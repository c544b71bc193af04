/-
Patterns token by token.

Reading one part of a pattern is reading a token and letting it act on the
open groups (`Reader.part_eq`). Which token it is depends on the text and on
the switches alone, and hardly on the dot (`token_alike`). Where a token ends
does not depend on what follows: a closing parenthesis behind the text stays
where it is, unless the text ends in a comment (`token_carries`).
-/
import DocScribe.Proofs.ClassText

namespace DocScribe
namespace Pattern

variable {f : Flags} {u v : Text}

/-! ## Numbers of times -/

/-- The number that a row of digits stands for, which is written down
backwards. -/
def numberOf (f : Flags) (row : Text) (t : Text) : Except Fault (Nat × Text) :=
  match Text.digitsValue? row.reverse with
  | some n => if n < 1 <<< 32 then .ok (n, f.skip (t.dropWhile isBlank)) else .error .badCount
  | none => .error .badCount

theorem decimal_eq (f : Flags) (t : Text) :
    decimal f t =
      (Except.ok (consume f (rowStep Char.isDigit) (t.dropWhile isBlank).length (t.dropWhile isBlank) [])).bind
        fun r => numberOf f r.1 r.2 := by
  simp only [decimal, decimalDigits_eq]
  rfl

theorem decimal_carries {n : Nat} (h : decimal f u = .ok (n, v)) : Carries (decimal f) u n v := by
  rw [decimal_eq] at h
  generalize hrow : consume f (rowStep Char.isDigit) (u.dropWhile isBlank).length (u.dropWhile isBlank) [] = r at h
  have hnumber : Carries (numberOf f r.1) r.2 n v := by
    obtain ⟨row, w⟩ := r
    simp only [Except.bind, numberOf] at h
    split at h
    · next m hm =>
      split at h
      · next hlt =>
        cases h
        exact (Carries.pure n _).skip.dropBlanks.congr (by simp only [numberOf, hm, if_pos hlt])
          fun K => by simp only [numberOf, hm, if_pos hlt]
      · cases h
    · cases h
  subst hrow
  have hdigits := consume_carries f (rowStep Char.isDigit) (fun s => rfl) (u.dropWhile isBlank) []
  exact (hdigits.bind hnumber).dropBlanks.congr (decimal_eq ..) fun K => decimal_eq ..

/-- The end of a counted repetition, behind its upper bound. -/
def countsEnd (min max : Nat) (t : Text) : Except Fault ((Nat × Option Nat) × Text) :=
  match t with
  | '\x7d' :: t => if min ≤ max then .ok ((min, some max), t) else .error .badCount
  | _ => .error .badCount

/-- A counted repetition from behind its comma on. -/
def countsUpper (f : Flags) (min : Nat) (t : Text) : Except Fault ((Nat × Option Nat) × Text) :=
  match t with
  | '\x7d' :: t => .ok ((min, none), t)
  | t => (decimal f t).bind fun r => countsEnd min r.1 r.2

/-- A counted repetition from behind its lower bound on. -/
def countsRest (f : Flags) (min : Nat) (t : Text) : Except Fault ((Nat × Option Nat) × Text) :=
  match t with
  | '\x7d' :: t => .ok ((min, some min), t)
  | ',' :: t => countsUpper f min (f.skip t)
  | _ => .error .badCount

theorem countsUpper_cons (f : Flags) (min : Nat) {c : Char} (h : c ≠ '\x7d') (t : Text) :
    countsUpper f min (c :: t) = (decimal f (c :: t)).bind fun r => countsEnd min r.1 r.2 := by
  simp [countsUpper, h]

theorem countsEnd_eq (f : Flags) (min : Nat) (t : Text) :
    (do
      let (max, t) ← decimal f t
      match t with
      | '\x7d' :: t => if min ≤ max then .ok (min, some max, t) else .error .badCount
      | _ => .error .badCount) =
      ((decimal f t).bind fun r => countsEnd min r.1 r.2).map fun r => (r.1.1, r.1.2, r.2) := by
  cases decimal f t with
  | error e => rfl
  | ok r =>
    obtain ⟨max, t⟩ := r
    simp only [bind, Except.bind, countsEnd]
    split
    · split <;> rfl
    · rfl

/-- A counted repetition, after its opening brace. -/
def countsPair (f : Flags) (t : Text) : Except Fault ((Nat × Option Nat) × Text) :=
  (decimal f (f.skip t)).bind fun r => countsRest f r.1 r.2

theorem counts_eq (f : Flags) (t : Text) :
    counts f t = (countsPair f t).map fun r => (r.1.1, r.1.2, r.2) := by
  unfold counts countsPair
  cases decimal f (f.skip t) with
  | error e => rfl
  | ok r =>
    obtain ⟨min, t⟩ := r
    cases t with
    | nil => rfl
    | cons c t =>
      by_cases hbrace : c = '\x7d'
      · subst hbrace
        rfl
      by_cases hcomma : c = ','
      · subst hcomma
        simp only [bind, Except.bind, countsRest]
        split
        · next hskip =>
          rw [hskip]
          rfl
        · next hbrace =>
          have hupper : countsUpper f min (f.skip t) = (decimal f (f.skip t)).bind fun r => countsEnd min r.1 r.2 := by
            unfold countsUpper
            split
            · next heq => exact absurd heq (hbrace _)
            · rfl
          rw [hupper]
          exact countsEnd_eq f min (f.skip t)
      · simp [bind, Except.bind, countsRest, hbrace, hcomma]
        rfl

theorem countsEnd_carries {min max : Nat} {a : Nat × Option Nat} (h : countsEnd min max u = .ok (a, v)) :
    Carries (countsEnd min max) u a v := by
  unfold countsEnd at h
  split at h
  · split at h
    · next hle =>
      cases h
      exact .cons (fun t => by simp only [countsEnd, if_pos hle]) (.pure _ _)
    · cases h
  · cases h

theorem countsUpper_carries {min : Nat} {a : Nat × Option Nat} (h : countsUpper f min u = .ok (a, v)) :
    Carries (countsUpper f min) u a v := by
  cases u with
  | nil => cases h
  | cons c t =>
    by_cases hc : c = '\x7d'
    · subst hc
      cases h
      exact .cons (fun t => rfl) (.pure _ _)
    · have heq := countsUpper_cons f min hc
      rw [heq] at h
      obtain ⟨⟨max, w⟩, hmax, hend⟩ := bind_ok_iff.1 h
      exact ((decimal_carries hmax).bind (countsEnd_carries hend)).congr (heq _) fun K => heq _

theorem countsRest_carries {min : Nat} {a : Nat × Option Nat} (h : countsRest f min u = .ok (a, v)) :
    Carries (countsRest f min) u a v := by
  unfold countsRest at h
  split at h
  · cases h
    exact .cons (fun t => rfl) (.pure _ _)
  · exact .cons (fun t => rfl) (countsUpper_carries h).skip
  · cases h

theorem countsPair_carries {a : Nat × Option Nat} (h : countsPair f u = .ok (a, v)) : Carries (countsPair f) u a v := by
  obtain ⟨⟨min, w⟩, hmin, hrest⟩ := bind_ok_iff.1 h
  exact (decimal_carries hmin).skip.bind (countsRest_carries hrest)

theorem laziness_carries (u : Text) : Carries (fun t => .ok (laziness t)) u (laziness u).1 (laziness u).2 := by
  cases u with
  | nil => exact (Carries.pure true []).congr rfl fun K => rfl
  | cons c t =>
    by_cases hc : c = '?'
    · subst hc
      exact .cons (fun t => rfl) (.pure false t)
    · have heq : ∀ t, laziness (c :: t) = (true, c :: t) := fun t => by simp [laziness, hc]
      rw [heq]
      exact (Carries.pure true (c :: t)).congr (by rw [heq]) fun K => by rw [List.cons_append, heq]

/-! ## Groups and switches -/

theorem groupName_carries {name : Text} (h : groupName u = .ok (name, v)) : Carries groupName u name v := by
  have hsplit := List.takeWhile_append_dropWhile (p := (· != '>')) (l := u)
  cases hd : u.dropWhile (· != '>') with
  | nil =>
    simp only [groupName, hd] at h
    cases h
  | cons d rest =>
    have hlen : (u.takeWhile (· != '>')).length ≠ u.length := by
      intro hlen
      have := congrArg List.length hsplit
      rw [List.length_append, hd, List.length_cons] at this
      omega
    have hshort : rest.length ≤ u.length := by
      have := (List.dropWhile_sublist (l := u) (· != '>')).length_le
      rw [hd, List.length_cons] at this
      omega
    have heq : ∀ s, groupName (u ++ s) = (groupName u).map fun r => (r.1, rest ++ s) := fun s => by
      simp only [groupName, List.takeWhile_append, if_neg hlen, List.dropWhile_append, hd, List.isEmpty_cons,
        Bool.false_eq_true, if_false, List.cons_append]
      split
      · rfl
      · split <;> rfl
    have hv : v = rest := by
      have := heq []
      rw [List.append_nil, List.append_nil, h] at this
      cases this
      rfl
    subst hv
    exact ⟨h, hshort, .inl fun K => by rw [heq, h]; rfl⟩

namespace Flags

/-- The same switches, up to whether the dot matches line feeds. -/
def Alike (f g : Flags) : Prop := ∃ b, g = { f with dotAll := b }

theorem Alike.refl (f : Flags) : f.Alike f := ⟨f.dotAll, rfl⟩

theorem Alike.set {f g f' : Flags} {on : Bool} {c : Char} (h : f.Alike g) (hf : f.set on c = some f') :
    ∃ g', f'.Alike g' ∧ g.set on c = some g' := by
  obtain ⟨b, rfl⟩ := h
  unfold Flags.set at hf ⊢
  split at hf <;> cases hf
  all_goals exact ⟨_, ⟨_, rfl⟩, rfl⟩

end Flags

theorem switches_cons (f : Flags) (on : Bool) (seen : Text) {c : Char} (hcolon : c ≠ ':') (hclose : c ≠ ')') (t : Text) :
    switches f on seen (c :: t) =
      if seen.contains c then .error .badFlags
      else if c = '-' then switches f false (c :: seen) t
      else
        match f.set on c with
        | some f => switches f on (c :: seen) t
        | none => .error .badFlags := by
  conv => lhs; unfold switches
  split
  · next h => cases h
  · next h =>
    cases h
    exact absurd rfl hcolon
  · next h =>
    cases h
    exact absurd rfl hclose
  · next h =>
    cases h
    rfl

/-- Switches are set one by one, up to their end. -/
theorem switches_alike {g f' : Flags} {on opens : Bool} {seen : Text} (hfg : f.Alike g)
    (h : switches f on seen u = .ok (f', opens, v)) :
    v.length ≤ u.length ∧ ∃ g', f'.Alike g' ∧ ∀ s, switches g on seen (u ++ s) = .ok (g', opens, v ++ s) := by
  induction u generalizing f g on seen with
  | nil => cases h
  | cons c t ih =>
    by_cases hcolon : c = ':'
    · subst hcolon
      simp only [switches] at h
      split at h
      · cases h
      · next hs =>
        cases h
        exact ⟨Nat.le_succ _, g, hfg, fun s => by simp only [switches, List.cons_append, if_neg hs]⟩
    by_cases hclose : c = ')'
    · subst hclose
      simp only [switches] at h
      split at h
      · cases h
      · next hs =>
        split at h
        · cases h
        · next hseen =>
          cases h
          refine ⟨Nat.le_succ _, g, hfg, fun s => ?_⟩
          simp only [switches, List.cons_append, if_neg hs, if_neg hseen]
    have hf := switches_cons f on seen hcolon hclose
    have hg := switches_cons g on seen hcolon hclose
    rw [hf] at h
    split at h
    · cases h
    · next hseen =>
      split at h
      · next hhyphen =>
        obtain ⟨hlen, g', hg', hs⟩ := ih hfg h
        refine ⟨Nat.le_succ_of_le hlen, g', hg', fun s => ?_⟩
        rw [List.cons_append, hg, if_neg hseen, if_pos hhyphen, hs]
      · next hhyphen =>
        split at h
        · next f₁ hset =>
          obtain ⟨g₁, hfg₁, hset'⟩ := hfg.set hset
          obtain ⟨hlen, g', hg', hs⟩ := ih hfg₁ h
          refine ⟨Nat.le_succ_of_le hlen, g', hg', fun s => ?_⟩
          rw [List.cons_append, hg, if_neg hseen, if_neg hhyphen, hset']
          exact hs s
        · cases h

/-! ## Tokens -/

/-- What a part of a pattern does to the open groups. -/
inductive Token where
  /-- A group opened, with the switches in force inside it. -/
  | opens (name : Option Text) (flags : Flags)
  | closes
  | bar
  | sets (flags : Flags)
  | oneOf (set : CharSet)
  | atom (a : Atom)
  | dot
  | startMark
  | endMark
  | times (greedy : Bool) (min : Nat) (max : Option Nat)

/-- Tokens that differ only in whether the dot matches line feeds. -/
inductive Token.Alike : Token → Token → Prop where
  | refl (k : Token) : Alike k k
  | opens {f g : Flags} (name : Option Text) (h : f.Alike g) : Alike (.opens name f) (.opens name g)
  | sets {f g : Flags} (h : f.Alike g) : Alike (.sets f) (.sets g)

/-- A group that is named. -/
def namedOpening (f : Flags) (t : Text) : Except Fault (Token × Text) :=
  (groupName t).map fun r => (.opens (some r.1) f, r.2)

/-- Switches that are set, for a group or for what follows. -/
def switchesToken (f : Flags) (t : Text) : Except Fault (Token × Text) :=
  (switches f true [] t).map fun r => (if r.2.1 then .opens none r.1 else .sets r.1, r.2.2)

/-- What follows an opening parenthesis and a question mark. -/
def markedOpening (f : Flags) (t : Text) : Except Fault (Token × Text) :=
  match t with
  | [] => .error .badFlags
  | c :: t =>
    if c = '=' ∨ c = '!' then .error .lookAround
    else if c = '<' then
      if t.head? = some '=' ∨ t.head? = some '!' then .error .lookAround else namedOpening f t
    else if c = 'P' ∧ t.head? = some '<' then namedOpening f t.tail
    else switchesToken f (c :: t)

/-- What follows an opening parenthesis. -/
def opening (f : Flags) (t : Text) : Except Fault (Token × Text) :=
  match t with
  | '?' :: t => markedOpening f t
  | t => .ok (.opens none f, t)

/-- The token at the start of a text. -/
def token (f : Flags) (c : Char) (t : Text) : Except Fault (Token × Text) :=
  match c with
  | '(' => opening f (f.skip t)
  | ')' => .ok (.closes, t)
  | '|' => .ok (.bar, t)
  | '[' => (bracketClass f t).map fun r => (.oneOf r.1, r.2)
  | '?' => .ok (.times (laziness t).1 0 (some 1), (laziness t).2)
  | '*' => .ok (.times (laziness t).1 0 none, (laziness t).2)
  | '+' => .ok (.times (laziness t).1 1 none, (laziness t).2)
  | '\x7b' =>
    (countsPair f t).map fun r => (.times (laziness (f.skip r.2)).1 r.1.1 r.1.2, (laziness (f.skip r.2)).2)
  | '\\' => (escape f t).map fun r => (.atom r.1, r.2)
  | '.' => .ok (.dot, t)
  | '^' => .ok (.startMark, t)
  | '$' => .ok (.endMark, t)
  | c => .ok (.atom (.char c false), t)

/-- The open groups after a token. -/
def Reader.act (r : Reader) : Token → Except Fault Reader
  | .opens none flags => r.openGroup none flags
  | .opens (some name) flags =>
    if r.names.contains name then .error (.duplicateGroupName name)
    else { r with names := name :: r.names }.openGroup (some name) flags
  | .closes => r.closeGroup
  | .bar => .ok { r with frame := { r.frame with finished := r.frame.alternative :: r.frame.finished, parts := [] } }
  | .sets flags => .ok { r with flags, frame := { r.frame with parts := none :: r.frame.parts } }
  | .oneOf s => .ok (r.push (.chars s))
  | .atom a => r.pushAtom a
  | .dot => r.flags.dot.map fun s => r.push (.chars s)
  | .startMark => .ok (r.push (.anchor r.flags.startMark))
  | .endMark => .ok (r.push (.anchor r.flags.endMark))
  | .times greedy min max => r.repeatLast greedy min max

theorem Reader.openNamed_eq (r : Reader) (t : Text) :
    r.openNamed t = (namedOpening r.flags t).bind fun k => (r.act k.1).map (·, k.2) := by
  unfold Reader.openNamed namedOpening
  cases groupName t with
  | error e => rfl
  | ok x =>
    obtain ⟨name, t⟩ := x
    simp only [bind, Except.bind, Except.map, Reader.act]
    split
    · rfl
    · split <;> rfl

theorem Reader.switches_eq (r : Reader) (t : Text) :
    (do
      let (flags, opens, t) ← switches r.flags true [] t
      if opens then .ok (← r.openGroup none flags, t)
      else .ok ({ r with flags, frame := { r.frame with parts := none :: r.frame.parts } }, t)) =
      (switchesToken r.flags t).bind fun k => (r.act k.1).map (·, k.2) := by
  unfold switchesToken
  cases switches r.flags true [] t with
  | error e => rfl
  | ok x =>
    obtain ⟨flags, opens, t⟩ := x
    cases opens with
    | false => rfl
    | true =>
      simp only [bind, Except.bind, Except.map, Reader.act, if_true]

theorem Reader.parenthesis_eq (r : Reader) (t : Text) :
    r.parenthesis t = (opening r.flags (r.flags.skip t)).bind fun k => (r.act k.1).map (·, k.2) := by
  have hplain : ∀ t : Text, (do .ok (← r.openGroup none r.flags, t)) =
      (Except.ok (Token.opens none r.flags, t)).bind fun k => (r.act k.1).map (·, k.2) := fun t => by
    simp only [Except.bind, Reader.act]
    cases r.openGroup none r.flags <;> rfl
  unfold Reader.parenthesis
  generalize r.flags.skip t = t
  split
  · rfl
  · rfl
  · rfl
  · rfl
  · exact r.openNamed_eq _
  · next inner hahead hnot =>
    have hhead : ¬(inner.head? = some '=' ∨ inner.head? = some '!') := by
      simp only [List.head?_eq_some_iff]
      rintro (⟨tail, h⟩ | ⟨tail, h⟩)
      · exact hahead tail h
      · exact hnot tail h
    have heq : opening r.flags ('?' :: '<' :: inner) = namedOpening r.flags inner := by
      simp only [opening, markedOpening]
      rw [if_neg (by decide), if_pos trivial, if_neg hhead]
    rw [heq]
    exact r.openNamed_eq _
  · next inner h1 h2 _ _ h5 h6 =>
    have heq : opening r.flags ('?' :: inner) = switchesToken r.flags inner := by
      cases inner with
      | nil => rfl
      | cons c t =>
        simp only [opening, markedOpening]
        rw [if_neg, if_neg, if_neg]
        · rintro ⟨rfl, hhead⟩
          obtain ⟨tail, rfl⟩ := List.head?_eq_some_iff.1 hhead
          exact h5 tail rfl
        · rintro rfl
          exact h6 t rfl
        · rintro (rfl | rfl)
          · exact h1 t rfl
          · exact h2 t rfl
    rw [heq]
    exact r.switches_eq _
  · next hplain' =>
    have heq : opening r.flags t = .ok (.opens none r.flags, t) := by
      unfold opening
      split
      · exact absurd rfl (hplain' _)
      · rfl
    rw [heq]
    exact hplain _

/-- **Reading a part is reading a token and acting on it.** -/
theorem Reader.part_eq (r : Reader) (c : Char) (t : Text) :
    r.part c t = (token r.flags c t).bind fun k => (r.act k.1).map (·, k.2) := by
  have hmap : ∀ (x : Except Fault Reader) (t : Text), (do .ok (← x, t)) = x.map (·, t) := fun x t => by
    cases x <;> rfl
  unfold Reader.part
  split
  · exact r.parenthesis_eq t
  · exact hmap _ _
  · rfl
  · simp only [token]
    cases bracketClass r.flags t <;> rfl
  · exact hmap _ _
  · exact hmap _ _
  · exact hmap _ _
  · simp only [token, counts_eq]
    cases countsPair r.flags t with
    | error e => rfl
    | ok x => exact hmap _ _
  · simp only [token]
    cases escape r.flags t with
    | error e => rfl
    | ok x => exact hmap _ _
  · simp only [token]
    show _ = (r.flags.dot.map fun s => r.push (.chars s)).map (·, t)
    cases r.flags.dot <;> rfl
  · rfl
  · rfl
  · next h1 h2 h3 h4 h5 h6 h7 h8 h9 h10 h11 h12 =>
    have heq : token r.flags c t = .ok (.atom (.char c false), t) := by
      simp only [token]
    rw [heq]
    exact hmap _ _

theorem namedOpening_carries {k : Token} (h : namedOpening f u = .ok (k, v)) : Carries (namedOpening f) u k v :=
  .of_map (x := groupName) (f := fun name => Token.opens (some name) f) (fun _ => rfl) h fun _ => groupName_carries

theorem switchesToken_alike {g : Flags} {k : Token} (hfg : f.Alike g) (h : switchesToken f u = .ok (k, v)) :
    v.length ≤ u.length ∧ ∃ k', k.Alike k' ∧ ∀ s, switchesToken g (u ++ s) = .ok (k', v ++ s) := by
  unfold switchesToken at h
  cases hs : switches f true [] u with
  | error e =>
    rw [hs] at h
    cases h
  | ok r =>
    obtain ⟨flags, opens, w⟩ := r
    rw [hs] at h
    cases h
    obtain ⟨hlen, flags', halike, happend⟩ := switches_alike hfg hs
    refine ⟨hlen, if opens then .opens none flags' else .sets flags', ?_, fun s => ?_⟩
    · cases opens with
      | false => exact .sets halike
      | true => exact .opens none halike
    · rw [switchesToken, happend]
      rfl

theorem switchesToken_carries {k : Token} (h : switchesToken f u = .ok (k, v)) : Carries (switchesToken f) u k v := by
  obtain ⟨hlen, k', -, happend⟩ := switchesToken_alike (.refl f) h
  have hself := happend []
  rw [List.append_nil, List.append_nil, h] at hself
  cases hself
  exact ⟨h, hlen, .inl fun K => happend _⟩

theorem head?_close {d : Char} (hd : d ≠ ')') (t K : Text) : (t ++ ')' :: K).head? = some d ↔ t.head? = some d := by
  cases t with
  | nil => simp [hd.symm]
  | cons c t => rfl

theorem markedOpening_carries {k : Token} (h : markedOpening f u = .ok (k, v)) : Carries (markedOpening f) u k v := by
  cases u with
  | nil => cases h
  | cons c t =>
    have hahead : ∀ K, (t ++ ')' :: K).head? = some '=' ∨ (t ++ ')' :: K).head? = some '!' ↔
        t.head? = some '=' ∨ t.head? = some '!' := fun K => by
      rw [head?_close (by decide), head?_close (by decide)]
    have hname : ∀ K, (t ++ ')' :: K).head? = some '<' ↔ t.head? = some '<' := fun K => head?_close (by decide) t K
    simp only [markedOpening] at h
    split at h
    · cases h
    · next hlook =>
      split at h
      · next hangle =>
        split at h
        · cases h
        · next hhead =>
          refine (namedOpening_carries h).via (Nat.le_succ _) ?_ fun K => ?_
          · simp only [markedOpening, if_neg hlook, if_pos hangle, if_neg hhead]
          · simp only [markedOpening, List.cons_append, if_neg hlook, if_pos hangle, hahead, if_neg hhead]
      · next hangle =>
        split at h
        · next hp =>
          obtain ⟨rest, rfl⟩ := List.head?_eq_some_iff.1 hp.2
          refine (namedOpening_carries h).via (by simp only [List.length_cons, List.tail_cons]; omega) ?_ fun K => ?_
          · simp only [markedOpening, if_neg hlook, if_neg hangle, if_pos hp]
          · simp only [markedOpening, List.cons_append, if_neg hlook, if_neg hangle, List.head?_cons]
            rw [if_pos ⟨hp.1, trivial⟩]
            rfl
        · next hp =>
          refine (switchesToken_carries h).congr ?_ fun K => ?_
          · simp only [markedOpening, if_neg hlook, if_neg hangle, if_neg hp]
          · simp only [markedOpening, List.cons_append, if_neg hlook, if_neg hangle, hname, if_neg hp]

theorem opening_carries {k : Token} (h : opening f u = .ok (k, v)) : Carries (opening f) u k v := by
  cases u with
  | nil =>
    cases h
    exact (Carries.pure _ _).congr rfl fun K => rfl
  | cons c t =>
    by_cases hc : c = '?'
    · subst hc
      exact .cons (fun t => rfl) (markedOpening_carries h)
    · have heq : ∀ t, opening f (c :: t) = .ok (.opens none f, c :: t) := fun t => by simp [opening, hc]
      rw [heq] at h
      cases h
      exact (Carries.pure _ _).congr (heq _) fun K => heq _

/-- **A closing parenthesis behind a token stays where it is**, unless the
token ends in a comment. -/
theorem token_carries {c : Char} {k : Token} (h : token f c u = .ok (k, v)) : Carries (token f c) u k v := by
  have hlazy : ∀ {u v : Text} {z : Bool → Token} {k : Token},
      (Except.ok (z (laziness u).1, (laziness u).2) : Except Fault _) = .ok (k, v) →
        Carries (fun t => .ok (z (laziness t).1, (laziness t).2)) u k v := by
    intro u v z k h
    cases h
    exact (laziness_carries u).map z
  have hconst : ∀ {k' : Token}, (∀ t, token f c t = .ok (k', t)) → Carries (token f c) u k v := by
    intro k' hall
    rw [hall] at h
    cases h
    exact (Carries.pure k u).congr (hall u) fun K => hall _
  unfold token at h
  split at h
  · exact (opening_carries h).skip
  · exact hconst fun _ => rfl
  · exact hconst fun _ => rfl
  · exact .of_map (x := bracketClass f) (fun _ => rfl) h fun _ => bracketClass_carries
  · exact hlazy (z := fun b => .times b 0 (some 1)) h
  · exact hlazy (z := fun b => .times b 0 none) h
  · exact hlazy (z := fun b => .times b 1 none) h
  · cases hpair : countsPair f u with
    | error e =>
      rw [hpair] at h
      cases h
    | ok r =>
      rw [hpair] at h
      have htimes := hlazy (z := fun b => .times b r.1.1 r.1.2) h
      exact (countsPair_carries hpair).bind
        (z := fun a t => .ok (Token.times (laziness (f.skip t)).1 a.1 a.2, (laziness (f.skip t)).2)) htimes.skip
  · exact .of_map (x := escape f) (fun _ => rfl) h fun _ => escape_carries
  · exact hconst fun _ => rfl
  · exact hconst fun _ => rfl
  · exact hconst fun _ => rfl
  · have hatom : ∀ t, token f c t = .ok (.atom (.char c false), t) := fun _ => by simp only [token]
    exact hconst hatom

/-! ## Whether the dot matches line feeds -/

section

variable (f : Flags) (b : Bool)

theorem hexDigits_dotAll (n : Nat) (t : Text) (value : Nat) :
    hexDigits { f with dotAll := b } n t value = hexDigits f n t value := by
  induction n generalizing t value with
  | zero => rfl
  | succ n ih =>
    cases t with
    | nil => rfl
    | cons c t =>
      simp only [hexDigits, ih]
      rfl

theorem bracedHex_dotAll (n : Nat) (t digits : Text) :
    bracedHex { f with dotAll := b } n t digits = bracedHex f n t digits := by
  induction n generalizing t digits with
  | zero => rfl
  | succ n ih =>
    cases t with
    | nil => rfl
    | cons c t =>
      simp only [bracedHex, ih]
      rfl

theorem bracedName_dotAll (n : Nat) (t name : Text) :
    bracedName { f with dotAll := b } n t name = bracedName f n t name := by
  induction n generalizing t name with
  | zero => rfl
  | succ n ih =>
    cases t with
    | nil => rfl
    | cons c t =>
      simp only [bracedName, ih]
      rfl

theorem consume_dotAll {σ : Type} (step : σ → Char → Option σ) (n : Nat) (t : Text) (s : σ) :
    consume { f with dotAll := b } step n t s = consume f step n t s := by
  induction n generalizing t s with
  | zero => rfl
  | succ n ih =>
    cases t with
    | nil => rfl
    | cons c t =>
      simp only [consume, ih]
      rfl

theorem hexEscape_dotAll (width : Nat) (t : Text) :
    hexEscape { f with dotAll := b } width t = hexEscape f width t := by
  simp only [hexEscape_eq, codePoint, bracedHex_dotAll, hexDigits_dotAll]
  rfl

theorem propertyEscape_dotAll (negated : Bool) (t : Text) :
    propertyEscape { f with dotAll := b } negated t = propertyEscape f negated t := by
  simp only [propertyEscape_eq, propertyText, bracedName_dotAll]
  rfl

theorem wordEdgeEscape_dotAll (t : Text) : wordEdgeEscape { f with dotAll := b } t = wordEdgeEscape f t := by
  unfold wordEdgeEscape
  simp only [edgeName_eq, consume_dotAll]
  rfl

theorem escape_dotAll (t : Text) : escape { f with dotAll := b } t = escape f t := by
  unfold escape
  simp only [hexEscape_dotAll, propertyEscape_dotAll, wordEdgeEscape_dotAll]
  rfl

theorem classItem_dotAll (t : Text) : classItem { f with dotAll := b } t = classItem f t := by
  have hatom : ∀ t, classAtom { f with dotAll := b } t = classAtom f t := fun t => by
    unfold classAtom
    simp only [escape_dotAll]
  simp only [classItem_eq, classRest, hatom]
  rfl

theorem openClass_dotAll (outer : CharSet) (t : Text) : openClass { f with dotAll := b } outer t = openClass f outer t := by
  simp only [openClass_eq, classSign, classStart, consume_dotAll]
  rfl

theorem classBody_dotAll (n : Nat) (frames : List ClassFrame) (union : CharSet) (t : Text) :
    classBody { f with dotAll := b } n frames union t = classBody f n frames union t := by
  induction n generalizing frames union t with
  | zero => rfl
  | succ n ih =>
    simp only [classBody_succ, classPart, classOpen, classItem_dotAll, openClass_dotAll, classOn, ih]
    rfl

theorem bracketClass_dotAll (t : Text) : bracketClass { f with dotAll := b } t = bracketClass f t := by
  simp only [bracketClass, openClass_dotAll, classBody_dotAll]

theorem decimal_dotAll (t : Text) : decimal { f with dotAll := b } t = decimal f t := by
  simp only [decimal_eq, numberOf, consume_dotAll]
  rfl

theorem countsPair_dotAll (t : Text) : countsPair { f with dotAll := b } t = countsPair f t := by
  simp only [countsPair, countsRest, countsUpper, decimal_dotAll]
  rfl

end

theorem namedOpening_alike {g : Flags} {k : Token} (hfg : f.Alike g) (h : namedOpening f u = .ok (k, v)) :
    ∃ k', k.Alike k' ∧ namedOpening g u = .ok (k', v) := by
  unfold namedOpening at h ⊢
  cases hname : groupName u with
  | error e =>
    rw [hname] at h
    cases h
  | ok r =>
    rw [hname] at h
    cases h
    exact ⟨_, .opens _ hfg, rfl⟩

theorem opening_alike {g : Flags} {k : Token} (hfg : f.Alike g) (h : opening f u = .ok (k, v)) :
    ∃ k', k.Alike k' ∧ opening g u = .ok (k', v) := by
  have hswitches : ∀ {t}, switchesToken f t = .ok (k, v) → ∃ k', k.Alike k' ∧ switchesToken g t = .ok (k', v) :=
    fun {t} ht => by
      obtain ⟨-, k', hk, happend⟩ := switchesToken_alike hfg ht
      exact ⟨k', hk, by simpa using happend []⟩
  unfold opening at h ⊢
  split at h
  · unfold markedOpening at h ⊢
    split at h
    · cases h
    · split at h
      · cases h
      · next hlook =>
        simp only [if_neg hlook]
        split at h
        · next hangle =>
          simp only [if_pos hangle]
          split at h
          · cases h
          · next hhead =>
            simp only [if_neg hhead]
            exact namedOpening_alike hfg h
        · next hangle =>
          simp only [if_neg hangle]
          split at h
          · next hp =>
            simp only [if_pos hp]
            exact namedOpening_alike hfg h
          · next hp =>
            simp only [if_neg hp]
            exact hswitches h
  · cases h
    exact ⟨_, .opens none hfg, rfl⟩

/-- Which token it is depends on the dot only for the switches it carries. -/
theorem token_alike {g : Flags} {c : Char} {k : Token} (hfg : f.Alike g) (h : token f c u = .ok (k, v)) :
    ∃ k', k.Alike k' ∧ token g c u = .ok (k', v) := by
  by_cases hc : c = '('
  · subst hc
    have hskip : g.skip u = f.skip u := by
      obtain ⟨b, rfl⟩ := hfg
      rfl
    simp only [token, hskip] at h ⊢
    exact opening_alike hfg h
  · refine ⟨k, .refl k, ?_⟩
    obtain ⟨b, rfl⟩ := hfg
    rw [← h]
    unfold token
    simp only [bracketClass_dotAll, countsPair_dotAll, escape_dotAll]
    split
    · exact absurd rfl hc
    all_goals rfl

end Pattern
end DocScribe
