/-
Paths by their components.

A dot names a component only at the start of a relative path
(`Path.current_not_mem_tail`). So a relative path that is taken from a base
adds its components to those of the base, less such a dot
(`Path.components_join`).
-/
import DocScribe.Path
import DocScribe.Proofs.LineFacts

namespace DocScribe
namespace Path

theorem same_iff {p q : Path} : p.same q = true ↔ p.components = q.components := beq_iff_eq

theorem same_comm (p q : Path) : p.same q = q.same p := Bool.beq_comm

theorem endsWith_iff {p q : Path} : p.endsWith q = true ↔ q.components <:+ p.components := by
  rw [endsWith, List.isPrefixOf_iff_prefix, List.reverse_prefix]

/-! ## Pieces and components -/

/-- The components that the pieces of a path name, given whether it is
absolute. -/
def componentsOf (absolute : Bool) : List Text → List Component
  | [] => []
  | piece :: rest => (componentOf true absolute piece).toList ++ rest.filterMap (componentOf false absolute)

theorem components_eq (p : Path) : p.components = componentsOf p.isAbsolute (Text.pieces (· == '/') p.text) := by
  rw [components, pieces]
  cases Text.pieces (· == '/') p.text with
  | nil => rfl
  | cons piece rest =>
    simp only [componentsOf, isAbsolute, List.filterMap_cons, List.filterMap_map, Function.comp_def]
    cases componentOf true (decide (p.text.head? = some '/')) piece <;> rfl

theorem componentsOf_append {absolute : Bool} {a : List Text} (h : a ≠ []) (b : List Text) :
    componentsOf absolute (a ++ b) = componentsOf absolute a ++ b.filterMap (componentOf false absolute) := by
  obtain ⟨piece, rest, rfl⟩ := List.exists_cons_of_ne_nil h
  rw [List.cons_append, componentsOf, componentsOf, List.filterMap_append, List.append_assoc]

theorem componentOf_inner_ne_current {absolute : Bool} {piece : Text} {c : Component}
    (h : componentOf false absolute piece = some c) : c ≠ .current := by
  unfold componentOf at h
  grind

/-- What the pieces of a relative path name behind a slash. -/
theorem filter_components {p : Path} (h : p.isAbsolute = false) (absolute : Bool) :
    p.components.filter (· ≠ .current) =
      (Text.pieces (· == '/') p.text).filterMap (componentOf false absolute) := by
  have hinner : componentOf false absolute = componentOf false false := by
    funext piece
    simp [componentOf]
  have hfirst (piece : Text) : (componentOf true false piece).toList.filter (· ≠ .current) =
      (componentOf false false piece).toList := by
    by_cases hempty : piece.isEmpty
    · simp [componentOf, hempty]
    by_cases hdot : piece = ['.']
    · simp [componentOf, hdot]
    by_cases hdots : piece = ['.', '.']
    · simp [componentOf, hdots]
    · simp [componentOf, hempty, hdot, hdots]
  rw [components_eq, h, hinner]
  cases Text.pieces (· == '/') p.text with
  | nil => rfl
  | cons piece rest =>
    have hrest : (rest.filterMap (componentOf false false)).filter (· ≠ .current) =
        rest.filterMap (componentOf false false) := by
      refine List.filter_eq_self.2 fun c hc => ?_
      obtain ⟨q, -, hq⟩ := List.mem_filterMap.1 hc
      simpa using componentOf_inner_ne_current hq
    rw [componentsOf, List.filter_append, hfirst, hrest, List.filterMap_cons]
    cases componentOf false false piece <;> rfl

theorem current_not_mem_tail (p : Path) : .current ∉ p.components.tail := by
  rw [components_eq]
  cases Text.pieces (· == '/') p.text with
  | nil => simp [componentsOf]
  | cons piece rest =>
    intro hmem
    have hrest : Component.current ∈ rest.filterMap (componentOf false p.isAbsolute) := by
      rw [componentsOf] at hmem
      cases hfirst : componentOf true p.isAbsolute piece with
      | none =>
        rw [hfirst] at hmem
        exact List.mem_of_mem_tail hmem
      | some c =>
        rw [hfirst] at hmem
        exact hmem
    obtain ⟨q, -, hq⟩ := List.mem_filterMap.1 hrest
    exact componentOf_inner_ne_current hq rfl

theorem filter_of_not_mem_current {cs : List Component} (h : .current ∉ cs) : cs.filter (· ≠ .current) = cs := by
  refine List.filter_eq_self.2 fun c hc => ?_
  simpa using ne_of_mem_of_not_mem hc h

/-- A path with a dot at its start. -/
theorem components_of_mem_current {p : Path} (h : .current ∈ p.components) :
    p.components = .current :: p.components.filter (· ≠ .current) := by
  have htail := current_not_mem_tail p
  cases hp : p.components with
  | nil => simp [hp] at h
  | cons c rest =>
    rw [hp, List.tail_cons] at htail
    rw [hp] at h
    obtain rfl : Component.current = c := (List.mem_cons.1 h).resolve_right htail
    rw [List.filter_cons_of_neg (by simp), filter_of_not_mem_current htail]

theorem components_ne_nil {p : Path} (h : p.text ≠ []) : p.components ≠ [] := by
  obtain ⟨c, t, ht⟩ := List.exists_cons_of_ne_nil h
  rw [components_eq, isAbsolute, ht, Text.pieces]
  by_cases hc : c = '/'
  · simp [hc, componentsOf, componentOf]
  · obtain ⟨piece, rest, hpieces⟩ := List.exists_cons_of_ne_nil (Text.pieces_ne_nil (· == '/') t)
    have hfirst : (componentOf true false (c :: piece)).isSome = true := by
      simp only [componentOf, List.isEmpty_cons, Bool.false_eq_true, if_false, if_true]
      split
      · rfl
      · split <;> rfl
    rw [if_neg (by simpa using hc), hpieces]
    simp [componentsOf, hc, Option.isSome_iff_ne_none.1 hfirst]

/-! ## Joining -/

theorem join_eq_self {base p : Path} (h : base.text = []) : base.join p = p := by simp [join, h]

/-- A relative path taken from a base, as text. -/
theorem join_text {base p : Path} (hbase : base.text ≠ []) (hp : p.isAbsolute = false) :
    ∃ b, (base.join p).text = b ++ '/' :: p.text ∧ (base.text = b ∨ base.text = b ++ ['/']) := by
  have hsome : (p.isAbsolute || base.text.isEmpty) = false := by simp [hp, hbase]
  rw [join, if_neg (by simp [hsome])]
  split
  · next hslash =>
    obtain ⟨b, hb⟩ := Text.endsWith_iff.1 hslash
    exact ⟨b, by simp [hb], .inr hb⟩
  · exact ⟨base.text, by simp, .inl rfl⟩

theorem isAbsolute_join {base p : Path} (hbase : base.text ≠ []) (hp : p.isAbsolute = false) :
    (base.join p).isAbsolute = base.isAbsolute := by
  obtain ⟨b, hjoin, hb⟩ := join_text hbase hp
  rw [isAbsolute, isAbsolute, hjoin]
  rcases hb with hb | hb
  · obtain ⟨c, t, hct⟩ := List.exists_cons_of_ne_nil hbase
    rw [← hb, hct]
    rfl
  · rw [hb]
    cases b <;> rfl

theorem components_join {base p : Path} (hbase : base.text ≠ []) (hp : p.isAbsolute = false) :
    (base.join p).components = base.components ++ p.components.filter (· ≠ .current) := by
  obtain ⟨b, hjoin, hb⟩ := join_text hbase hp
  have hbase' : base.components = componentsOf base.isAbsolute (Text.pieces (· == '/') b) := by
    rw [components_eq]
    rcases hb with hb | hb
    · rw [hb]
    · -- the slash at the end names nothing
      rw [hb, Text.pieces_append_cons rfl, componentsOf_append (Text.pieces_ne_nil _ _)]
      simp [Text.pieces, componentOf]
  rw [components_eq, isAbsolute_join hbase hp, hjoin, Text.pieces_append_cons rfl,
    componentsOf_append (Text.pieces_ne_nil _ _), hbase', filter_components hp base.isAbsolute]

end Path
end DocScribe
