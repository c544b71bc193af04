/-
The kinds of construct in a catalog.

A plan is that of one of the formats (`Catalog.planFor_ofFormats`). Its kinds
come in the order of work, each at most once (`Format.plan_kinds_sublist`), and
their grammars are those of their shapes (`Catalog.ofShape_of_mem`).
-/
import DocScribe.Catalog

namespace DocScribe

theorem Shape.ofRules_kind {kind : Kind} {extension : Text} {c : ConstructRules} {a : ArgumentRules} {s : Shape}
    (h : Shape.ofRules kind extension c a = .ok s) : s.kind = kind := by
  unfold Shape.ofRules at h
  split at h
  · cases h
  · cases h
    rfl

theorem Grammar.ofShape_ok {s : Shape} {g : Grammar} (h : Grammar.ofShape s = .ok g) :
    g.shape = s ∧ Pattern.parse s.source = .ok g.pattern ∧ Grammar.splitterOf s.arguments = .ok g.splitter := by
  unfold Grammar.ofShape at h
  split at h
  · next hpattern hsplitter =>
    cases h
    exact ⟨rfl, hpattern, hsplitter⟩
  · cases h
  · cases h

namespace Format

/-- The grammar of a kind of construct is that of its shape. -/
theorem kindPlan_ok {f : Format} {kind : Kind} {k : KindPlan} (h : f.kindPlan kind = .ok k) :
    k.grammar.shape.kind = kind ∧ Grammar.ofShape k.grammar.shape = .ok k.grammar := by
  unfold kindPlan Grammar.ofRules at h
  cases hshape : Shape.ofRules kind (normalExtension f.extension) (f.rules kind) f.arguments with
  | error e =>
    rw [hshape] at h
    cases h
  | ok s =>
    rw [hshape] at h
    change (Grammar.ofShape s).bind _ = _ at h
    cases hgrammar : Grammar.ofShape s with
    | error e =>
      rw [hgrammar] at h
      cases h
    | ok g =>
      rw [hgrammar] at h
      cases h
      obtain ⟨rfl, -, -⟩ := Grammar.ofShape_ok hgrammar
      exact ⟨Shape.ofRules_kind hshape, hgrammar⟩

theorem exists_kindPlan {f : Format} {k : KindPlan} (h : k ∈ f.plan.kinds) : ∃ kind, f.kindPlan kind = .ok k := by
  obtain ⟨kind, -, hk⟩ := List.mem_filterMap.1 h
  cases hplan : f.kindPlan kind with
  | error e =>
    rw [hplan] at hk
    cases hk
  | ok k' =>
    rw [hplan] at hk
    cases hk
    exact ⟨kind, hplan⟩

/-- The kinds of a plan come in the order of work, each at most once. -/
theorem plan_kinds_sublist (f : Format) : (f.plan.kinds.map (·.grammar.shape.kind)).Sublist Kind.all := by
  have hkinds : ∀ kinds : List Kind,
      ((kinds.filterMap fun k => (f.kindPlan k).toOption).map (·.grammar.shape.kind)).Sublist kinds := by
    intro kinds
    induction kinds with
    | nil => exact .slnil
    | cons kind kinds ih =>
      cases h : f.kindPlan kind with
      | error e =>
        rw [List.filterMap_cons_none (by rw [h]; rfl)]
        exact ih.cons kind
      | ok k =>
        rw [List.filterMap_cons_some (by rw [h]; rfl), List.map_cons, (kindPlan_ok h).1]
        exact ih.cons_cons kind
  exact (hkinds f.kinds).trans List.filter_sublist

end Format

namespace Catalog

theorem planFor_ofFormats {formats : List Format} {file : Path} {plan : FormatPlan}
    (h : (ofFormats formats).planFor file = .ok plan) : ∃ f ∈ formats, plan = f.plan := by
  unfold planFor at h
  split at h
  · next found hfound =>
    cases h
    obtain ⟨extension, -, hfind⟩ := Option.bind_eq_some_iff.1 hfound
    obtain ⟨f, hf, rfl⟩ := List.mem_map.1 (List.mem_of_find?_eq_some hfind)
    exact ⟨f, hf, rfl⟩
  · cases h

theorem planFor_kinds_sublist {formats : List Format} {file : Path} {plan : FormatPlan}
    (h : (ofFormats formats).planFor file = .ok plan) :
    (plan.kinds.map (·.grammar.shape.kind)).Sublist Kind.all := by
  obtain ⟨f, -, rfl⟩ := planFor_ofFormats h
  exact f.plan_kinds_sublist

/-- Every grammar of a catalog is that of its shape. -/
theorem ofShape_of_mem {formats : List Format} {file : Path} {plan : FormatPlan} {k : KindPlan}
    (h : (ofFormats formats).planFor file = .ok plan) (hk : k ∈ plan.kinds) :
    Grammar.ofShape k.grammar.shape = .ok k.grammar := by
  obtain ⟨f, -, rfl⟩ := planFor_ofFormats h
  obtain ⟨kind, hkind⟩ := Format.exists_kindPlan hk
  exact (Format.kindPlan_ok hkind).2

end Catalog
end DocScribe
