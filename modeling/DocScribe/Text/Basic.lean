/-
Texts: sequences of characters, measured in bytes of their UTF-8 form.

Every offset of this library is such a byte offset. Cutting a text at an
offset is partial: `Text.cut?` answers only for offsets that lie inside the
text and between two characters, and `cut?_eq_some_iff` says so.
-/
namespace DocScribe

/-- A text, as its characters in order. -/
abbrev Text := List Char

instance : Coe String Text := ⟨String.toList⟩

namespace Text

/-- How many bytes the UTF-8 form of a text takes. -/
def size : Text → Nat
  | [] => 0
  | c :: t => c.utf8Size + size t

@[simp] theorem size_nil : size [] = 0 := rfl

@[simp] theorem size_cons (c : Char) (t : Text) : size (c :: t) = c.utf8Size + size t := rfl

@[simp] theorem size_append (a b : Text) : size (a ++ b) = size a + size b := by
  induction a with
  | nil => simp
  | cons c a ih => simp [ih, Nat.add_assoc]

/-- The two halves of a text at a byte offset; none when the offset is
outside the text or inside a character. -/
def cut? : Text → Nat → Option (Text × Text)
  | t, 0 => some ([], t)
  | [], _ + 1 => none
  | c :: t, n + 1 =>
    if c.utf8Size ≤ n + 1 then
      (cut? t (n + 1 - c.utf8Size)).map fun halves => (c :: halves.1, halves.2)
    else none

/-- The part of a text before an offset. -/
def before? (t : Text) (offset : Nat) : Option Text := (cut? t offset).map (·.1)

/-- The part of a text from an offset on. -/
def after? (t : Text) (offset : Nat) : Option Text := (cut? t offset).map (·.2)

@[simp] theorem cut?_zero (t : Text) : cut? t 0 = some ([], t) := by cases t <;> rfl

theorem cut?_size_append (a b : Text) : cut? (a ++ b) (size a) = some (a, b) := by
  induction a with
  | nil => simp
  | cons c a ih =>
    have hc := c.utf8Size_pos
    obtain ⟨n, hn⟩ : ∃ n, c.utf8Size + size a = n + 1 := ⟨c.utf8Size + size a - 1, by omega⟩
    have hle : c.utf8Size ≤ n + 1 := by omega
    have hrest : n + 1 - c.utf8Size = size a := by omega
    simp [hn, cut?, hle, hrest, ih]

theorem append_of_cut? {t a b : Text} {n : Nat} (h : cut? t n = some (a, b)) :
    t = a ++ b ∧ n = size a := by
  induction t generalizing n a with
  | nil =>
    cases n with
    | zero => simp at h; obtain ⟨rfl, rfl⟩ := h; simp
    | succ n => simp [cut?] at h
  | cons c t ih =>
    cases n with
    | zero => simp at h; obtain ⟨rfl, rfl⟩ := h; simp
    | succ n =>
      simp only [cut?] at h
      split at h
      · rename_i hle
        obtain ⟨⟨x, y⟩, hxy, heq⟩ := Option.map_eq_some_iff.1 h
        simp only [Prod.mk.injEq] at heq
        obtain ⟨rfl, rfl⟩ := heq
        obtain ⟨rfl, hn⟩ := ih hxy
        exact ⟨rfl, by simp only [size_cons]; omega⟩
      · simp at h

/-- An offset cuts a text exactly when it is the size of a leading part. -/
theorem cut?_eq_some_iff {t a b : Text} {n : Nat} :
    cut? t n = some (a, b) ↔ t = a ++ b ∧ n = size a :=
  ⟨append_of_cut?, fun ⟨ht, hn⟩ => by subst ht hn; exact cut?_size_append a b⟩

/-- What remains of a text after a leading part, if it has that part. -/
def dropLead? : Text → Text → Option Text
  | [], t => some t
  | _ :: _, [] => none
  | p :: ps, c :: t => if p = c then dropLead? ps t else none

/-- What remains of a text before a trailing part, if it has that part. -/
def dropTail? (tail t : Text) : Option Text :=
  (dropLead? tail.reverse t.reverse).map List.reverse

/-- Whether a text starts with another. -/
def startsWith (t lead : Text) : Bool := (dropLead? lead t).isSome

/-- Whether a text ends with another. -/
def endsWith (t tail : Text) : Bool := (dropTail? tail t).isSome

/-- Whether a text holds another somewhere. -/
def holds (part : Text) : Text → Bool
  | [] => part.isEmpty
  | c :: t => startsWith (c :: t) part || holds part t

/-- The pieces of a text between the characters of a class. There is always
at least one piece. -/
def pieces (isMark : Char → Bool) : Text → List Text
  | [] => [[]]
  | c :: t =>
    if isMark c then [] :: pieces isMark t
    else
      match pieces isMark t with
      | [] => [[c]]
      | p :: ps => (c :: p) :: ps

/-- The text up to the first place where a mark stands, and the text after
that mark. -/
def breakAt? (mark : Text) : Text → Option (Text × Text)
  | [] => if mark.isEmpty then some ([], []) else none
  | c :: t =>
    match dropLead? mark (c :: t) with
    | some rest => some ([], rest)
    | none => (breakAt? mark t).map fun halves => (c :: halves.1, halves.2)

/-- The texts between the occurrences of a mark, which are taken from the
left and do not overlap; `fuel` bounds their number. -/
def splitFuel (mark : Text) : Nat → Text → List Text
  | 0, t => [t]
  | fuel + 1, t =>
    match breakAt? mark t with
    | some (head, rest) => head :: splitFuel mark fuel rest
    | none => [t]

/-- The texts between the occurrences of a non-empty mark. -/
def splitOn (mark t : Text) : List Text := splitFuel mark t.length t

/-- Texts put in a row with a separator between them. -/
def join (separator : Text) (parts : List Text) : Text := separator.intercalate parts

/-- Every occurrence of a non-empty mark replaced. -/
def replace (mark new t : Text) : Text := join new (splitOn mark t)

/-- The text without its first and last characters of a class. -/
def trimBy (drop : Char → Bool) (t : Text) : Text :=
  ((t.dropWhile drop).reverse.dropWhile drop).reverse

/-- The text without its last characters of a class. -/
def trimEndBy (drop : Char → Bool) (t : Text) : Text := (t.reverse.dropWhile drop).reverse

/-- Capital letters of ASCII made small. -/
def asciiLower (t : Text) : Text := t.map Char.toLower

/-- Whether one text comes before another in the order of their characters. -/
def lt : Text → Text → Bool
  | [], [] => false
  | [], _ :: _ => true
  | _ :: _, [] => false
  | a :: as, b :: bs => if a = b then lt as bs else a.val < b.val

/-- A natural number in decimal digits. -/
def ofNat (n : Nat) : Text := Nat.toDigits 10 n

/-- The number that a non-empty row of decimal digits stands for. -/
def digitsValue? (t : Text) : Option Nat :=
  if t.isEmpty || t.any (fun c => !c.isDigit) then none
  else some (t.foldl (fun n c => 10 * n + (c.toNat - '0'.toNat)) 0)

end Text
end DocScribe
