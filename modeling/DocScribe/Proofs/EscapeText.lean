/-
Escapes carry what follows: what a backslash introduces ends where it ends,
and a closing parenthesis behind it stays where it is (`escape_carries`).
-/
import DocScribe.Proofs.Carrying

namespace DocScribe
namespace Pattern

variable {f : Flags} {u v : Text}

theorem hexDigits_carries {n value a : Nat} (h : hexDigits f n u value = .ok (a, v)) :
    Carries (fun t => hexDigits f n t value) u a v := by
  induction n generalizing u value with
  | zero =>
    cases h
    exact .pure _ _
  | succ n ih =>
    cases u with
    | nil => cases h
    | cons c u =>
      simp only [hexDigits] at h
      split at h
      · next d hd => exact .cons (fun t => by simp only [hexDigits, hd]) (ih h).skip
      · cases h

theorem bracedHex_carries {n a : Nat} {digits : Text} (h : bracedHex f n u digits = .ok (a, v)) :
    Carries (fun t => bracedHex f n t digits) u a v := by
  induction n generalizing u digits with
  | zero => cases h
  | succ n ih =>
    cases u with
    | nil => cases h
    | cons c u =>
      simp only [bracedHex] at h
      split at h
      · next hc =>
        split at h
        · next value hvalue =>
          cases h
          exact .cons (fun t => by simp only [bracedHex, if_pos hc, hvalue]) (Carries.pure a _).skip
        · cases h
      · next hc =>
        split at h
        · next hd => exact .cons (fun t => by simp only [bracedHex, if_neg hc, if_pos hd]) (ih h).skip
        · cases h

theorem bracedHex_mono {n m : Nat} {digits : Text} {r : Nat × Text} (hnm : n ≤ m)
    (h : bracedHex f n u digits = .ok r) : bracedHex f m u digits = .ok r := by
  induction n generalizing u digits m with
  | zero => cases h
  | succ n ih =>
    obtain ⟨m, rfl⟩ : ∃ k, m = k + 1 := ⟨m - 1, by omega⟩
    cases u with
    | nil => cases h
    | cons c u =>
      simp only [bracedHex] at h ⊢
      split at h
      · next hc => rw [if_pos hc, h]
      · next hc =>
        rw [if_neg hc]
        split at h
        · next hd => rw [if_pos hd, ih (by omega) h]
        · cases h

/-- The character of a code point that was read. -/
def charOf (n : Nat) (t : Text) : Except Fault (Atom × Text) :=
  match char? n with
  | some c => .ok (.char c (n < 256), t)
  | none => .error .badEscape

/-- The digits of a code point: in braces, or a given number of them. -/
def codePoint (f : Flags) (width : Nat) (t : Text) : Except Fault (Nat × Text) :=
  match t with
  | '\x7b' :: t => bracedHex f (t.length + 1) (f.skip t) []
  | t => hexDigits f width t 0

theorem codePoint_cons (f : Flags) (width : Nat) {c : Char} (h : c ≠ '\x7b') (t : Text) :
    codePoint f width (c :: t) = hexDigits f width (c :: t) 0 := by
  simp [codePoint, h]

theorem hexEscape_eq (f : Flags) (width : Nat) (t : Text) :
    hexEscape f width t = (codePoint f width (f.skip t)).bind fun r => charOf r.1 r.2 := by
  unfold hexEscape
  cases f.skip t with
  | nil => rfl
  | cons c t =>
    by_cases hc : c = '\x7b'
    · subst hc
      rfl
    · rw [codePoint_cons f width hc]
      simp [hc]
      rfl

theorem codePoint_carries {width a : Nat} (h : codePoint f width u = .ok (a, v)) :
    Carries (codePoint f width) u a v := by
  cases u with
  | nil => exact (hexDigits_carries (u := []) h).congr rfl fun _ => rfl
  | cons c u =>
    by_cases hc : c = '\x7b'
    · subst hc
      have hbraced : Carries (fun t => bracedHex f (u.length + 1) (f.skip t) []) u a v := (bracedHex_carries h).skip
      exact .cons (fun t => rfl) (hbraced.mono (x := fun t => bracedHex f (t.length + 1) (f.skip t) [])
        fun s r => bracedHex_mono (by simp))
    · have heq := codePoint_cons f width hc
      rw [heq] at h
      exact (hexDigits_carries h).congr (heq u) fun K => heq (u ++ ')' :: K)

theorem charOf_carries {n : Nat} {a : Atom} (h : charOf n u = .ok (a, v)) : Carries (charOf n) u a v := by
  simp only [charOf] at h
  split at h
  · next c hc =>
    cases h
    exact (Carries.pure _ _).congr (by simp only [charOf, hc]) fun K => by simp only [charOf, hc]
  · cases h

theorem hexEscape_carries {width : Nat} {a : Atom} (h : hexEscape f width u = .ok (a, v)) :
    Carries (hexEscape f width) u a v := by
  rw [hexEscape_eq] at h
  obtain ⟨⟨n, w⟩, hn, hc⟩ := bind_ok_iff.1 h
  exact ((codePoint_carries hn).skip.bind (charOf_carries hc)).congr (hexEscape_eq ..) fun K => hexEscape_eq ..

theorem bracedName_carries {n : Nat} {name a : Text} (h : bracedName f n u name = .ok (a, v)) :
    Carries (fun t => bracedName f n t name) u a v := by
  induction n generalizing u name with
  | zero => cases h
  | succ n ih =>
    cases u with
    | nil => cases h
    | cons c u =>
      simp only [bracedName] at h
      split at h
      · next hc =>
        cases h
        exact .cons (fun t => by simp only [bracedName, if_pos hc]) (.pure _ _)
      · next hc => exact .cons (fun t => by simp only [bracedName, if_neg hc]) (ih h).skip

theorem bracedName_mono {n m : Nat} {name : Text} {r : Text × Text} (hnm : n ≤ m)
    (h : bracedName f n u name = .ok r) : bracedName f m u name = .ok r := by
  induction n generalizing u name m with
  | zero => cases h
  | succ n ih =>
    obtain ⟨m, rfl⟩ : ∃ k, m = k + 1 := ⟨m - 1, by omega⟩
    cases u with
    | nil => cases h
    | cons c u =>
      simp only [bracedName] at h ⊢
      split at h
      · next hc => rw [if_pos hc, h]
      · next hc => rw [if_neg hc, ih (by omega) h]

/-- The name of a property: in braces, or one letter. -/
def propertyText (f : Flags) (t : Text) : Except Fault (Text × Text) :=
  match t with
  | [] => .error .badEscape
  | '\x7b' :: t => bracedName f (t.length + 1) (f.skip t) []
  | c :: t => if c = '\\' then .error .badEscape else .ok ([c], f.skip t)

/-- The set of a property whose name was read. -/
def propertyAtom (f : Flags) (negated : Bool) (name : Text) : Except Fault Atom :=
  if !f.unicode then .error .notText
  else (propertySet name).map fun s => .set (if negated then .compl (f.fold s) else f.fold s)

theorem propertyEscape_eq (f : Flags) (negated : Bool) (t : Text) :
    propertyEscape f negated t =
      (propertyText f (f.skip t)).bind fun r => (propertyAtom f negated r.1).map (·, r.2) := by
  have hatom : ∀ (name t : Text), (if (!f.unicode) = true then Except.error Fault.notText else do
        let s ← propertySet name
        .ok (Atom.set (if negated = true then .compl (f.fold s) else f.fold s), t)) =
      (propertyAtom f negated name).map (·, t) := by
    intro name t
    unfold propertyAtom
    split
    · rfl
    · cases propertySet name <;> rfl
  unfold propertyEscape propertyText
  cases f.skip t with
  | nil => rfl
  | cons c t =>
    by_cases hc : c = '\x7b'
    · subst hc
      exact congrArg (Except.bind (bracedName f (t.length + 1) (f.skip t) [])) (funext fun r => hatom r.1 r.2)
    · by_cases hs : c = '\\'
      · subst hs
        rfl
      · simp only [hs, if_false]
        exact hatom [c] (f.skip t)

theorem propertyText_carries {a : Text} (h : propertyText f u = .ok (a, v)) : Carries (propertyText f) u a v := by
  cases u with
  | nil => cases h
  | cons c u =>
    by_cases hc : c = '\x7b'
    · subst hc
      have hbraced : Carries (fun t => bracedName f (u.length + 1) (f.skip t) []) u a v := (bracedName_carries h).skip
      exact .cons (fun t => rfl) (hbraced.mono (x := fun t => bracedName f (t.length + 1) (f.skip t) [])
        fun s r => bracedName_mono (by simp))
    · have heq : ∀ t, propertyText f (c :: t) = if c = '\\' then .error .badEscape else .ok ([c], f.skip t) := fun t => by
        simp [propertyText]
      rw [heq] at h
      split at h
      · cases h
      · next hslash =>
        cases h
        exact .cons (fun t => by rw [heq, if_neg hslash]) (Carries.pure [c] _).skip

theorem propertyEscape_carries {negated : Bool} {a : Atom} (h : propertyEscape f negated u = .ok (a, v)) :
    Carries (propertyEscape f negated) u a v := by
  rw [propertyEscape_eq] at h
  obtain ⟨⟨name, w⟩, hname, h⟩ := bind_ok_iff.1 h
  exact ((propertyText_carries hname).skip.bind (z := fun name t => (propertyAtom f negated name).map (·, t))
    (.result h)).congr (propertyEscape_eq ..) fun K => propertyEscape_eq ..

/-- The edge of a word that a name in braces tells. -/
def namedEdge (w : CharSet) (name : String) : Except Fault Atom :=
  match name with
  | "start" => .ok (.anchor (.wordStart w))
  | "end" => .ok (.anchor (.wordEnd w))
  | "start-half" => .ok (.anchor (.wordStartHalf w))
  | "end-half" => .ok (.anchor (.wordEndHalf w))
  | _ => .error .badEscape

/-- The closing brace behind the name of an edge, which is written down
backwards. -/
def edgeEnd (f : Flags) (row : Text) (t : Text) : Except Fault (Atom × Text) :=
  match t with
  | '\x7d' :: t => (namedEdge f.wordSet (String.ofList row.reverse)).map (·, t)
  | _ => .error .badEscape

theorem edgeEnd_carries {row : Text} {a : Atom} (h : edgeEnd f row u = .ok (a, v)) : Carries (edgeEnd f row) u a v := by
  unfold edgeEnd at h
  split at h
  · exact .one (z := namedEdge f.wordSet (String.ofList row.reverse)) (fun t => rfl) h
  · cases h

theorem wordEdgeEscape_bare {t : Text} (h : t.head? ≠ some '\x7b') :
    wordEdgeEscape f t = .ok (.anchor (.wordEdge f.wordSet), t) := by
  unfold wordEdgeEscape
  split
  · exact absurd rfl h
  · rfl

theorem wordEdgeEscape_braced {inner rest : Text} {c : Char} (h : f.skip inner = c :: rest) :
    wordEdgeEscape f ('\x7b' :: inner) =
      if c.isAlpha || c = '-' then
        (Except.ok (consume f (rowStep fun c => c.isAlpha || c = '-') (c :: rest).length (c :: rest) [])).bind
          fun r => edgeEnd f r.1 r.2
      else .ok (.anchor (.wordEdge f.wordSet), '\x7b' :: inner) := by
  simp only [wordEdgeEscape, h, edgeName_eq, List.length_cons]
  generalize consume f (rowStep fun c => c.isAlpha || decide (c = '-')) (rest.length + 1) (c :: rest) [] = r
  obtain ⟨row, t⟩ := r
  split
  · cases t with
    | nil => rfl
    | cons d t =>
      by_cases hd : d = '\x7d'
      · subst hd
        simp only [Except.bind, edgeEnd, namedEdge]
        generalize String.ofList (List.reverse row) = name
        split <;> simp [Except.map]
      · simp [hd, Except.bind, edgeEnd]
  · rfl

theorem wordEdgeEscape_carries {a : Atom} (h : wordEdgeEscape f u = .ok (a, v)) :
    Carries (wordEdgeEscape f) u a v := by
  have hbare : ∀ t : Text, (∀ s, wordEdgeEscape f (t ++ s) = .ok (.anchor (.wordEdge f.wordSet), t ++ s)) →
      wordEdgeEscape f t = .ok (a, v) → Carries (wordEdgeEscape f) t a v := by
    intro t ht hall
    have hself := ht []
    rw [List.append_nil, hall] at hself
    cases hself
    exact (Carries.pure _ _).congr hall fun K => ht _
  cases u with
  | nil =>
    cases h
    exact (Carries.pure _ _).congr rfl fun K => rfl
  | cons d inner =>
    by_cases hd : d = '\x7b'
    · subst hd
      cases hinner : f.skip inner with
      | nil =>
        simp only [wordEdgeEscape, hinner] at h
        cases h
      | cons c rest =>
        have hall := Flags.skip_cons_append hinner
        by_cases hc : (c.isAlpha || decide (c = '-')) = true
        · rw [wordEdgeEscape_braced hinner, if_pos hc] at h
          have hrow := consume_carries f (rowStep fun c => c.isAlpha || c = '-') (fun s => rfl) (c :: rest) []
          have hlen := hinner ▸ f.skip_length inner
          refine (hrow.bind (edgeEnd_carries h)).via (Nat.le_succ_of_le hlen) ?_ fun K => ?_
          · rw [wordEdgeEscape_braced hinner, if_pos hc]
          · rw [List.cons_append, wordEdgeEscape_braced (hall _), if_pos hc]
            rfl
        · refine hbare _ (fun s => ?_) h
          rw [List.cons_append, wordEdgeEscape_braced (hall s), if_neg hc]
    · refine hbare _ (fun s => wordEdgeEscape_bare ?_) h
      simpa using hd

theorem escape_carries {a : Atom} (h : escape f u = .ok (a, v)) : Carries (escape f) u a v := by
  cases u with
  | nil => cases h
  | cons c t =>
    by_cases hc : isQuotable c = true
    · exact .one (z := .ok (.char c false)) (fun t => by simp only [escape, if_pos hc]; rfl) h
    have hself := h
    simp only [escape, if_neg hc] at h
    split at h
    · exact .cons (fun t => by simp only [escape, if_neg hc]) (hexEscape_carries h)
    · exact .cons (fun t => by simp only [escape, if_neg hc]) (hexEscape_carries h)
    · exact .cons (fun t => by simp only [escape, if_neg hc]) (hexEscape_carries h)
    · exact .cons (fun t => by simp only [escape, if_neg hc]) (propertyEscape_carries h)
    · exact .cons (fun t => by simp only [escape, if_neg hc]) (propertyEscape_carries h)
    iterate 6
      · exact .one (z := (f.letterClass _).map .set) (fun t => by
          simp only [escape, if_neg hc]
          cases f.letterClass _ <;> rfl) hself
    iterate 8
      · cases h
        exact .cons (fun t => by simp only [escape, if_neg hc]) (.pure _ _)
    · exact .cons (fun t => by simp only [escape, if_neg hc]) (wordEdgeEscape_carries h)
    iterate 3
      · cases h
        exact .cons (fun t => by simp only [escape, if_neg hc]) (.pure _ _)
    · cases h

end Pattern
end DocScribe
