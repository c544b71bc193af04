/-
Documenting a file twice.

With placeholders nothing is up to the user, so a second run works on what the
first one wrote. It leaves a Python file alone exactly when only blanks
followed the classes and the methods that the first run documented
(`Python.second_run_iff`).
-/
import DocScribe.Proofs.Placeholders
import DocScribe.Proofs.Redocumenting

namespace DocScribe

/-! ## Python files -/

namespace Python

/-- A text in which classes are looked for. -/
def headed (file : Path) (t : Text) : Text := headerPlan.filled file t

/-- A text in which methods are looked for. -/
def classed (file : Path) (t : Text) : Text := classPlan.filled file (headed file t)

/-- **A second run leaves a Python file alone exactly when only blanks followed
the classes and the methods that the first run documented, on the lines their
signatures end on.** -/
theorem second_run_iff {d : Documenter Unit} (hd : d.Unattended) {file : Path}
    (hplan : d.catalog.planFor file = .ok Format.python.plan) {w : World Unit} {t : Text}
    (hread : w.tree.read file = .ok t) (haccepts : w.tree.Accepts file)
    (hclass : (classGrammar.matchedNames file (headed file t)).Nodup)
    (hmethod : (methodGrammar.matchedNames file (classed file t)).Nodup) :
    ∃ r₁ w₁ r₂ w₂, Work.runIn w (d.documentFile file none) = (.ok (some r₁), w₁) ∧
      w₁.tree.read file = .ok r₁.updated ∧
      Work.runIn w₁ (d.documentFile file none) = (.ok (some r₂), w₂) ∧
      (r₂.changed = false ∧ r₂.kinds = [] ↔
        classPlan.Clean file (headed file t) ∧ methodPlan.Clean file (classed file t)) := by
  have hplan' : d.catalog.planFor file = .ok plan := hplan.trans (congrArg Except.ok plan_eq)
  obtain ⟨r₁, w₁, hrun₁, -, hupdated₁, hread₁, haccepts₁, -⟩ :=
    Documenter.documentFile_placeholder hd hplan' plan_untemplated plan_ordered hread haccepts
  obtain ⟨r₂, w₂, hrun₂, hbefore₂, hupdated₂, -, -, hnone⟩ :=
    Documenter.documentFile_placeholder hd hplan' plan_untemplated plan_ordered hread₁ haccepts₁
  refine ⟨r₁, w₁, r₂, w₂, hrun₁, hread₁, hrun₂, ?_⟩
  have hfilled : r₁.updated = methodPlan.filled file (classed file t) := by
    rw [hupdated₁, plan, List.foldl_cons, List.foldl_cons, List.foldl_cons, List.foldl_nil, classed, headed]
  have hleft := nothing_left_iff (opened_header file t) hclass hmethod
  rw [← headed, ← classed, ← hfilled, ← hnone] at hleft
  rw [← hleft]
  refine ⟨And.right, fun hkinds => ⟨?_, hkinds⟩⟩
  rw [FileReport.changed, hbefore₂, hupdated₂, KindPlan.foldl_filled_of_none (hnone.1 hkinds)]
  simp

/-! A function with its body below it, and one with its body on the same line:
there the docstring goes below the body, where the next run does not look for
it. -/

namespace TwoRuns

def file : Path := ⟨"a.py"⟩

def documenter : Documenter Unit := { catalog := .ofFormats [.python], prompter := .placeholder }

def world (t : Text) : World Unit := { tree := { nodes := [(["a.py"], .file (.text t))] }, prompt := () }

theorem unattended : documenter.Unattended := ⟨rfl, rfl, rfl⟩

theorem planFor_file : documenter.catalog.planFor file = .ok Format.python.plan :=
  (planFor_py (by decide)).trans (congrArg Except.ok plan_eq.symm)

theorem read_file (t : Text) : (world t).tree.read file = .ok t := rfl

theorem accepts_file (t : Text) : (world t).tree.Accepts file := fun _ _ _ _ => rfl

def indented : Text := "def f():\n    pass\n"

set_option maxRecDepth 100000 in
theorem distinct_indented : (classGrammar.matchedNames file (headed file indented)).Nodup ∧
    (methodGrammar.matchedNames file (classed file indented)).Nodup := by decide

set_option maxRecDepth 100000 in
theorem clean_indented :
    classPlan.Clean file (headed file indented) ∧ methodPlan.Clean file (classed file indented) := by
  decide

theorem second_run_indented :
    ∃ r₁ w₁ r₂ w₂, Work.runIn (world indented) (documenter.documentFile file none) = (.ok (some r₁), w₁) ∧
      w₁.tree.read file = .ok r₁.updated ∧
      Work.runIn w₁ (documenter.documentFile file none) = (.ok (some r₂), w₂) ∧
      r₂.changed = false ∧ r₂.kinds = [] := by
  obtain ⟨r₁, w₁, r₂, w₂, hrun₁, hread₁, hrun₂, hiff⟩ :=
    second_run_iff unattended planFor_file (read_file indented) (accepts_file indented) distinct_indented.1
      distinct_indented.2
  exact ⟨r₁, w₁, r₂, w₂, hrun₁, hread₁, hrun₂, hiff.2 clean_indented⟩

def oneLiner : Text := "def f(): pass\n"

def once : Text := "\"\"\"\n<docstring>\n\"\"\"\ndef f(): pass\n\"\"\"\n<docstring>\n\n\"\"\"\n"

def twice : Text :=
  "\"\"\"\n<docstring>\n\"\"\"\ndef f(): pass\n\"\"\"\n<docstring>\n\n\"\"\"\n\"\"\"\n<docstring>\n\n\"\"\"\n"

set_option maxRecDepth 100000 in
theorem distinct_oneLiner : (classGrammar.matchedNames file (headed file oneLiner)).Nodup ∧
    (methodGrammar.matchedNames file (classed file oneLiner)).Nodup := by decide

set_option maxRecDepth 100000 in
theorem filled_oneLiner : plan.kinds.foldl (fun t k => k.filled file t) oneLiner = once := by decide

set_option maxRecDepth 100000 in
theorem filled_once : plan.kinds.foldl (fun t k => k.filled file t) once = twice := by decide

/-- The second run puts in another docstring. -/
theorem second_run_oneLiner :
    documenter.Unattended ∧ documenter.catalog.planFor file = .ok Format.python.plan ∧
      (classGrammar.matchedNames file (headed file oneLiner)).Nodup ∧
      (methodGrammar.matchedNames file (classed file oneLiner)).Nodup ∧
      ∃ r₁ w₁ r₂ w₂, Work.runIn (world oneLiner) (documenter.documentFile file none) = (.ok (some r₁), w₁) ∧
        w₁.tree.read file = .ok once ∧
        Work.runIn w₁ (documenter.documentFile file none) = (.ok (some r₂), w₂) ∧
        r₂.before = once ∧ r₂.updated = twice ∧ r₂.changed = true := by
  have hplan : documenter.catalog.planFor file = .ok plan := planFor_file.trans (congrArg Except.ok plan_eq)
  obtain ⟨r₁, w₁, hrun₁, -, hupdated₁, hread₁, haccepts₁, -⟩ :=
    Documenter.documentFile_placeholder unattended hplan plan_untemplated plan_ordered (read_file oneLiner)
      (accepts_file oneLiner)
  rw [hupdated₁, filled_oneLiner] at hread₁
  obtain ⟨r₂, w₂, hrun₂, hbefore₂, hupdated₂, -⟩ :=
    Documenter.documentFile_placeholder unattended hplan plan_untemplated plan_ordered hread₁ haccepts₁
  rw [filled_once] at hupdated₂
  refine ⟨unattended, planFor_file, distinct_oneLiner.1, distinct_oneLiner.2, r₁, w₁, r₂, w₂, hrun₁, hread₁,
    hrun₂, hbefore₂, hupdated₂, ?_⟩
  rw [FileReport.changed, hbefore₂, hupdated₂]
  decide

end TwoRuns

end Python
end DocScribe
