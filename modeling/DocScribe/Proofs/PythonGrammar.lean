/-
The grammars of the built-in format for Python, with their patterns written
out: reading the patterns that the shapes write gives these
(`Python.plan_eq`).
-/
import DocScribe.Catalog
import DocScribe.Proofs.Carrying

namespace DocScribe

namespace Python

open Pattern

/-- A token as it is written. -/
def token (t : Text) : Pattern := seqs (t.map literal)

/-- Any number of blank characters. -/
def blanks : Pattern := star true (chars .blank)

/-- The delimiter of a docstring, if there is one. -/
def quotes? (name : Text) : Pattern := repeated true (group name (token "\"\"\"")) 0 (some 1)

def headerPattern : Pattern := seqs [anchor .startText, blanks, quotes? "doc"]

def classPattern : Pattern :=
  seqs [group "indicator" (token "class"), plus true (chars .blank),
    group "name" (plus false (chars (.compl .blank))), blanks,
    repeated true (group "end_name" (seqs [literal '(', star false (chars .any)])) 0 (some 1),
    group "end" (literal ':'), blanks, quotes? "open"]

def methodPattern : Pattern :=
  seqs [group "indicator" (token "def"), plus true (chars .blank), group "name" (star false (chars .any)),
    blanks, literal '(', group "args" (star false (chars .any)), literal ')', blanks,
    group "end" (literal ':'), blanks, quotes? "open"]

/-- The shape that the rules for Python give a kind of construct. -/
def shape (kind : Kind) : Shape :=
  let c := Format.python.rules kind
  let a := Format.python.arguments
  { kind, extension := "py", indicator := c.indicator, ending := c.ending, ancestry := c.ancestry
    docOpen := c.docOpen, docClose := c.docClose, openPattern := c.docOpen, closePattern := c.docClose
    arguments := if kind = .method then some ⟨a.opening, a.closing, a.separator, a.regex, a.ignore⟩ else none
    before := kind = .header, withinScope := kind ≠ .header, regex := false, ignore := [] }

def headerGrammar : Grammar := ⟨shape .header, headerPattern, none⟩

def classGrammar : Grammar := ⟨shape .classDef, classPattern, none⟩

def methodGrammar : Grammar := ⟨shape .method, methodPattern, some (.literal ",")⟩

set_option maxRecDepth 100000 in
theorem parse_header : Pattern.parse (shape .header).source = .ok headerPattern :=
  eq_ok_of_toOption (by decide)

set_option maxRecDepth 100000 in
theorem parse_class : Pattern.parse (shape .classDef).source = .ok classPattern :=
  eq_ok_of_toOption (by decide)

set_option maxRecDepth 100000 in
theorem parse_method : Pattern.parse (shape .method).source = .ok methodPattern :=
  eq_ok_of_toOption (by decide)

theorem ofRules_of_parse {kind : Kind} {pattern : Pattern} (splitter : Option Splitter)
    (hshape : Shape.ofRules kind "py" (Format.python.rules kind) Format.python.arguments = .ok (shape kind))
    (hparse : Pattern.parse (shape kind).source = .ok pattern)
    (hsplit : Grammar.splitterOf (shape kind).arguments = .ok splitter) :
    Grammar.ofRules kind "py" (Format.python.rules kind) Format.python.arguments =
      .ok ⟨shape kind, pattern, splitter⟩ := by
  simp only [Grammar.ofRules, hshape, Except.bind, Grammar.ofShape, hparse, hsplit]

/-- How the blocks of a kind of construct look in Python. -/
def style (kind : Kind) : Style := Style.ofRules (Format.python.rules kind) Format.python.arguments

theorem kindPlan_of_ofRules {kind : Kind} {g : Grammar}
    (h : Grammar.ofRules kind "py" (Format.python.rules kind) Format.python.arguments = .ok g) :
    (Format.python.kindPlan kind).toOption = some ⟨g, style kind⟩ := by
  have hext : normalExtension Format.python.extension = "py".toList := by decide
  rw [Format.kindPlan, hext, h]
  rfl

theorem kinds_eq : Format.python.kinds = [.header, .classDef, .method] := by decide

def headerPlan : KindPlan := ⟨headerGrammar, style .header⟩

def classPlan : KindPlan := ⟨classGrammar, style .classDef⟩

def methodPlan : KindPlan := ⟨methodGrammar, style .method⟩

/-- The plan for Python files. -/
def plan : FormatPlan := ⟨"py", [headerPlan, classPlan, methodPlan]⟩

theorem plan_eq : Format.python.plan = plan := by
  have hext : normalExtension Format.python.extension = "py".toList := by decide
  have hheader := kindPlan_of_ofRules (ofRules_of_parse none rfl parse_header rfl)
  have hclass := kindPlan_of_ofRules (ofRules_of_parse none rfl parse_class rfl)
  have hmethod := kindPlan_of_ofRules
    (ofRules_of_parse (some (.literal ",")) rfl parse_method rfl)
  rw [Format.plan, hext, kinds_eq]
  simp only [List.filterMap_cons, List.filterMap_nil, hheader, hclass, hmethod]
  rfl

theorem plan_untemplated : ∀ k ∈ plan.kinds, k.style.template = none := by
  simp only [plan, List.forall_mem_cons, List.not_mem_nil, false_implies, implies_true, and_true]
  exact ⟨rfl, rfl, rfl⟩

/-- The plan for a file with the extension of Python, when no other format is
given. -/
theorem planFor_py {file : Path} (h : file.normalExtension? = some "py".toList) :
    (Catalog.ofFormats [.python]).planFor file = .ok plan := by
  have hextension : plan.extension = "py".toList := rfl
  simp only [Catalog.planFor, Catalog.forPath?, h, Option.bind_some, Catalog.ofFormats, List.map_cons, plan_eq,
    List.find?_cons, hextension, beq_self_eq_true]

end Python
end DocScribe
