/-
Listing what is to be documented, and documenting it.

A listing looks for every kind of construct in the file as it is; documenting
looks for each kind in the text that the kinds before it left. With
placeholders for answers, what is documented is what was listed exactly when no
kind finds other constructs there (`Documenter.listing_eq_iff`). The block of a
header can make the construct behind it look documented
(`HeaderAbove.listing_ne`).
-/
import DocScribe.Proofs.CatalogFacts
import DocScribe.Proofs.Placeholders
import DocScribe.Proofs.PythonGrammar

namespace DocScribe

/-- What a listing shows of each kind of construct, without the kinds of which
there are none. -/
def listing (scans : List (Session × List Event)) : List KindReport :=
  (scans.filter fun s => !s.1.isEmpty).map fun s => ⟨s.1.kind, s.1.candidates.map (·.name)⟩

theorem Session.kind_insertAll (s : Session) (cs : List Candidate) : (cs.foldl Session.insert s).kind = s.kind := by
  induction cs generalizing s with
  | nil => rfl
  | cons c cs ih =>
    rw [List.foldl_cons, ih, Session.insert]
    split <;> rfl

namespace KindPlan

variable {k : KindPlan} {kinds : List KindPlan} {file : Path} {t u : Text}

theorem listing_scans (kinds : List KindPlan) (file : Path) (t : Text) :
    listing (kinds.map fun k => scan k.grammar file t none) = kinds.flatMap (·.listed file t) := by
  induction kinds with
  | nil => rfl
  | cons k kinds ih =>
    have hkind : (scan k.grammar file t none).1.kind = k.grammar.shape.kind := Session.kind_insertAll _ _
    rw [List.map_cons, List.flatMap_cons, ← ih, listing, List.filter_cons, listed, names, hkind.symm]
    by_cases hnone : (scan k.grammar file t none).1.candidates = []
    · simp [Session.isEmpty, hnone, listing]
    · simp [Session.isEmpty, hnone, listing]

theorem kind_of_mem_listed {x : KindReport} (h : x ∈ k.listed file t) : x.kind = k.grammar.shape.kind := by
  unfold listed at h
  split at h
  · cases h
  · rw [List.mem_singleton.1 h]

theorem kind_of_mem_reported {x : KindReport} (h : x ∈ reported file kinds t) :
    x.kind ∈ kinds.map (·.grammar.shape.kind) := by
  induction kinds generalizing t with
  | nil => cases h
  | cons k kinds ih =>
    rcases List.mem_append.1 h with h | h
    · rw [kind_of_mem_listed h]
      exact List.mem_cons_self
    · exact List.mem_cons_of_mem _ (ih h)

theorem names_eq_flatMap (k : KindPlan) (file : Path) (t : Text) :
    k.names file t = (k.listed file t).flatMap (·.documented) := by
  unfold listed
  split
  · next h => rw [List.isEmpty_iff.1 h]; rfl
  · simp

theorem listed_eq_iff : k.listed file t = k.listed file u ↔ k.names file t = k.names file u := by
  constructor
  · intro h
    rw [names_eq_flatMap, names_eq_flatMap, h]
  · intro h
    rw [listed, listed, h]

/-- The entry of a kind can be told from those of other kinds. -/
theorem listed_append_inj {a b : List KindReport} (ha : ∀ x ∈ a, x.kind ≠ k.grammar.shape.kind)
    (hb : ∀ x ∈ b, x.kind ≠ k.grammar.shape.kind) :
    k.listed file t ++ a = k.listed file u ++ b ↔ k.listed file t = k.listed file u ∧ a = b := by
  constructor
  · intro h
    have hown (v : Text) : (k.listed file v).filter (·.kind = k.grammar.shape.kind) = k.listed file v :=
      List.filter_eq_self.2 fun x hx => by simpa using kind_of_mem_listed hx
    have hother {c : List KindReport} (hc : ∀ x ∈ c, x.kind ≠ k.grammar.shape.kind) :
        c.filter (·.kind = k.grammar.shape.kind) = [] := List.filter_eq_nil_iff.2 fun x hx => by simpa using hc x hx
    have hlisted := congrArg (List.filter (·.kind = k.grammar.shape.kind)) h
    rw [List.filter_append, List.filter_append, hown, hown, hother ha, hother hb, List.append_nil,
      List.append_nil] at hlisted
    rw [hlisted] at h
    exact ⟨hlisted, List.append_cancel_left h⟩
  · rintro ⟨hlisted, rfl⟩
    rw [hlisted]

/-- What is listed of a text is reported of another exactly when each kind has
the same names in it, once the kinds before are documented. -/
theorem flatMap_listed_eq_iff (hnodup : (kinds.map (·.grammar.shape.kind)).Nodup) :
    kinds.flatMap (·.listed file t) = reported file kinds u ↔
      ∀ before k after, kinds = before ++ k :: after →
        k.names file (before.foldl (fun v k => k.filled file v) u) = k.names file t := by
  induction kinds generalizing u with
  | nil => simp [reported]
  | cons k kinds ih =>
    obtain ⟨hk, hnodup⟩ := List.nodup_cons.1 hnodup
    have hlater : ∀ x ∈ kinds.flatMap (·.listed file t), x.kind ≠ k.grammar.shape.kind := by
      intro x hx heq
      obtain ⟨j, hj, hx⟩ := List.mem_flatMap.1 hx
      exact hk (List.mem_map.2 ⟨j, hj, by rw [← kind_of_mem_listed hx, heq]⟩)
    have hlater' : ∀ x ∈ reported file kinds (k.filled file u), x.kind ≠ k.grammar.shape.kind :=
      fun x hx heq => hk (by have hmem := kind_of_mem_reported hx; rwa [heq] at hmem)
    rw [List.flatMap_cons, reported, listed_append_inj hlater hlater', listed_eq_iff, ih hnodup]
    constructor
    · rintro ⟨hhere, hrest⟩ before j after heq
      cases before with
      | nil =>
        cases heq
        exact hhere.symm
      | cons i before =>
        cases heq
        exact hrest before j after rfl
    · intro hall
      refine ⟨(hall [] k kinds rfl).symm, fun before j after heq => ?_⟩
      exact hall (k :: before) j after (by rw [heq]; rfl)

/-- The kinds up to the first with something to document are looked for in the
text itself. -/
theorem flatMap_listed_eq_iff_later (hnodup : (kinds.map (·.grammar.shape.kind)).Nodup) :
    kinds.flatMap (·.listed file t) = reported file kinds t ↔
      ∀ before k after, kinds = before ++ k :: after → (∃ j ∈ before, j.names file t ≠ []) →
        k.names file (before.foldl (fun v k => k.filled file v) t) = k.names file t := by
  rw [flatMap_listed_eq_iff hnodup]
  refine ⟨fun h before k after heq _ => h before k after heq, fun h before k after heq => ?_⟩
  by_cases hsome : ∃ j ∈ before, j.names file t ≠ []
  · exact h before k after heq hsome
  · rw [foldl_filled_of_none]
    intro j hj
    exact names_eq_nil_iff.1 (Classical.byContradiction fun hj' => hsome ⟨j, hj, hj'⟩)

end KindPlan

namespace Documenter

variable {d : Documenter Unit} {w : World Unit} {file : Path}

/-- What is reported of a file that was documented with placeholders. -/
theorem kinds_of_documentFile (hd : d.Unasked) {plan : FormatPlan} (hplan : d.catalog.planFor file = .ok plan)
    (hstyle : ∀ k ∈ plan.kinds, k.style.template = none) {t : Text} (hread : w.tree.read file = .ok t)
    {r : FileReport} {w' : World Unit} (h : Work.runIn w (d.documentFile file none) = (.ok (some r), w')) :
    r.kinds = KindPlan.reported file plan.kinds t := by
  unfold documentFile at h
  rw [hplan] at h
  dsimp only at h
  rw [Work.runIn_bind_of_ok (Work.runIn_read hread)] at h
  obtain ⟨draft?, w₁, hrun, h⟩ := Work.runIn_bind_ok.1 h
  cases draft? with
  | none => cases h
  | some draft =>
    cases h
    exact documentKinds_kinds hd hstyle hrun

/-- **What is documented is what was listed exactly when no kind of construct
finds other names in the text that the kinds before it left.** Only a kind
behind one with something to document can do so. A report is given whenever the
groups of the grammars are in order and what is to be written is taken. -/
theorem listing_eq_iff (hd : d.Unasked) {formats : List Format} (hcatalog : d.catalog = .ofFormats formats)
    {plan : FormatPlan} (hplan : d.catalog.planFor file = .ok plan)
    (hstyle : ∀ k ∈ plan.kinds, k.style.template = none) {t : Text} (hread : w.tree.read file = .ok t) :
    ∃ scans, d.catalog.scanFile w.tree file none = .ok scans ∧
      ((∀ k ∈ plan.kinds, ∀ u, k.grammar.OrderedIn u) → (d.dryRun = false → w.tree.Accepts file) →
        ∃ r w', Work.runIn w (d.documentFile file none) = (.ok (some r), w')) ∧
      ∀ r w', Work.runIn w (d.documentFile file none) = (.ok (some r), w') →
        (listing scans = r.kinds ↔
          ∀ before k after, plan.kinds = before ++ k :: after → (∃ j ∈ before, j.names file t ≠ []) →
            k.names file (before.foldl (fun u k => k.filled file u) t) = k.names file t) := by
  refine ⟨plan.kinds.map fun k => scan k.grammar file t none, ?_, fun ho haccepts => ?_, fun r w' hrun => ?_⟩
  · rw [Catalog.scanFile, hplan]
    dsimp only
    rw [hread]
  · obtain ⟨draft, w', hrun, -⟩ :=
      documentKinds_placeholder hd hstyle ho { content := t } fun hdry => ⟨hread, haccepts hdry⟩
    refine ⟨⟨file, t, draft.content, draft.kinds⟩, w', ?_⟩
    rw [documentFile, hplan]
    exact Work.runIn_bind_ok.2 ⟨t, w, Work.runIn_read hread, Work.runIn_bind_ok.2 ⟨some draft, w', hrun, rfl⟩⟩
  · rw [hcatalog] at hplan
    have hnodup : (plan.kinds.map (·.grammar.shape.kind)).Nodup :=
      (Catalog.planFor_kinds_sublist hplan).nodup (by decide)
    rw [← hcatalog] at hplan
    rw [KindPlan.listing_scans, kinds_of_documentFile hd hplan hstyle hread hrun,
      KindPlan.flatMap_listed_eq_iff_later hnodup]

end Documenter

/-! ## A class with a method -/

namespace ClassAbove

def file : Path := ⟨"a.py"⟩

def text : Text := "class A:\n    def f(self):\n        pass\n"

def documenter : Documenter Unit := { catalog := .ofFormats [.python], prompter := .placeholder }

def world : World Unit := { tree := { nodes := [(["a.py"], .file (.text text))] }, prompt := () }

set_option maxRecDepth 100000 in
theorem names_kept :
    Python.classPlan.names file (Python.headerPlan.filled file text) = Python.classPlan.names file text ∧
      Python.methodPlan.names file (Python.classPlan.filled file (Python.headerPlan.filled file text)) =
        Python.methodPlan.names file text := by decide +kernel

theorem listing_eq_iff_both :
    ∃ scans r w', documenter.catalog.scanFile world.tree file none = .ok scans ∧
      Work.runIn world (documenter.documentFile file none) = (.ok (some r), w') ∧ listing scans = r.kinds := by
  have hplan : documenter.catalog.planFor file = .ok Python.plan := Python.planFor_py (by decide)
  have hread : world.tree.read file = .ok text := rfl
  obtain ⟨scans, hscan, hsuccess, hiff⟩ :=
    Documenter.listing_eq_iff ⟨rfl, rfl⟩ rfl hplan Python.plan_untemplated hread
  obtain ⟨r, w', hrun⟩ := hsuccess Python.plan_ordered fun _ _ _ _ _ => rfl
  refine ⟨scans, r, w', hscan, hrun, (hiff r w' hrun).2 ?_⟩
  intro before k after heq _
  match before, heq with
  | [], heq =>
    cases heq
    rfl
  | [_], heq =>
    cases heq
    exact names_kept.1
  | [_, _], heq =>
    cases heq
    exact names_kept.2
  | _ :: _ :: _ :: before, heq => simp [Python.plan] at heq

end ClassAbove

/-! ## A header above a function -/

namespace HeaderAbove

/-- Comments between slashes and stars, above functions and above the file. -/
def format : Format :=
  let starred : ConstructRules :=
    { docOpen := "/**", docClose := " */", docOpenPattern := some "/\\*\\*", docClosePattern := some "\\*/"
      innerIndent := .unit " * " }
  { extension := "js"
    header := starred
    methods := { starred with indicator := "function", ending := "\x7b", before := true } }

def file : Path := ⟨"math.js"⟩

def text : Text := "function add() \x7b\n\x7d\n"

def documenter : Documenter Unit := { catalog := .ofFormats [format], prompter := .placeholder }

def world : World Unit := { tree := { nodes := [(["math.js"], .file (.text text))] }, prompt := () }

set_option maxRecDepth 100000 in
theorem compiled : documenter.catalog.failures = [] ∧
    ∀ plan ∈ documenter.catalog.formats, ∀ k ∈ plan.kinds, k.style.template = none := by decide +kernel

set_option maxRecDepth 100000 in
theorem listed_and_documented :
    (documenter.catalog.scanFile world.tree file none).toOption.map listing =
        some [⟨.header, ["math.js"]⟩, ⟨.method, ["add"]⟩] ∧
      (Work.runIn world (documenter.documentFile file none)).1.toOption.map (·.map (·.kinds)) =
        some (some [⟨.header, ["math.js"]⟩]) := by decide +kernel

/-- The function is listed, but once the file has its header it counts as
documented. -/
theorem listing_ne :
    documenter.Unasked ∧ documenter.catalog.failures = [] ∧
      (∀ plan ∈ documenter.catalog.formats, ∀ k ∈ plan.kinds, k.style.template = none) ∧
      ∃ scans r w', documenter.catalog.scanFile world.tree file none = .ok scans ∧
        Work.runIn world (documenter.documentFile file none) = (.ok (some r), w') ∧
        listing scans = [⟨.header, ["math.js"]⟩, ⟨.method, ["add"]⟩] ∧ r.kinds = [⟨.header, ["math.js"]⟩] := by
  refine ⟨⟨rfl, rfl⟩, compiled.1, compiled.2, ?_⟩
  obtain ⟨hscanned, hdocumented⟩ := listed_and_documented
  cases hscan : documenter.catalog.scanFile world.tree file none with
  | error e => simp [hscan, Except.toOption] at hscanned
  | ok scans =>
    rcases hrun : Work.runIn world (documenter.documentFile file none) with ⟨e | r, w'⟩
    · simp [hrun, Except.toOption] at hdocumented
    · rw [hrun] at hdocumented
      rw [hscan] at hscanned
      obtain ⟨r, rfl, hkinds⟩ := Option.map_eq_some_iff.1 (Option.some.inj hdocumented)
      exact ⟨scans, r, w', rfl, rfl, Option.some.inj hscanned, hkinds⟩

end HeaderAbove
end DocScribe
