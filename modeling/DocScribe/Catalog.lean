/-
The catalog: the formats in force, each kind of construct with its compiled
grammar and its style.

Building a catalog never stops at a fault: a kind whose rules do not make a
grammar is left out, and its failure is kept.
-/
import DocScribe.Block.Layout
import DocScribe.FileTree.Basic
import DocScribe.Scan.Basic
import DocScribe.Settings.Basic

namespace DocScribe

/-- How one kind of construct is found and documented. -/
structure KindPlan where
  grammar : Grammar
  style : Style

/-- The kinds of construct of one extension, in the order of work. -/
structure FormatPlan where
  extension : Text
  kinds : List KindPlan

/-- The plans of every extension, and what went wrong while making them. -/
structure Catalog where
  formats : List FormatPlan
  failures : List Failure

/-- Whether the rules of a kind say anything: without an indicator and
delimiters it was never set up. -/
def ConstructRules.isGiven (c : ConstructRules) (kind : Kind) : Bool :=
  (kind ≠ .header && !c.indicator.isEmpty) || !c.docOpen.isEmpty || !c.docClose.isEmpty

namespace Format

/-- The kinds that a format documents. -/
def kinds (f : Format) : List Kind :=
  Kind.all.filter fun k => (f.rules k).enabled && (f.rules k).isGiven k

/-- The plan of one kind of construct. -/
def kindPlan (f : Format) (kind : Kind) : Except Failure KindPlan := do
  let grammar ← Grammar.ofRules kind (normalExtension f.extension) (f.rules kind) f.arguments
  .ok ⟨grammar, Style.ofRules (f.rules kind) f.arguments⟩

/-- The plan of a format, without the kinds that have none. -/
def plan (f : Format) : FormatPlan :=
  ⟨normalExtension f.extension, f.kinds.filterMap fun k => (f.kindPlan k).toOption⟩

/-- What is wrong with a format. -/
def failures (f : Format) : List Failure :=
  f.kinds.filterMap fun k =>
    match f.kindPlan k with
    | .ok _ => none
    | .error e => some e

end Format

namespace Catalog

/-- The catalog of some formats. -/
def ofFormats (fs : List Format) : Catalog := ⟨fs.map Format.plan, fs.flatMap Format.failures⟩

/-- The plan for the extension of a path. -/
def forPath? (c : Catalog) (p : Path) : Option FormatPlan :=
  p.normalExtension?.bind fun extension => c.formats.find? fun f => f.extension == extension

/-- Whether files like this can be documented. -/
def supports (c : Catalog) (p : Path) : Bool := (c.forPath? p).isSome

/-- The plan for a path, or the failure that there is none. -/
def planFor (c : Catalog) (p : Path) : Except Failure FormatPlan :=
  match c.forPath? p with
  | some plan => .ok plan
  | none => .error (.unknownFormat p.text)

/-- The constructs of a file that have no documentation, kind by kind, and
what is noted down about each kind. -/
def scanFile (c : Catalog) (t : FileTree) (file : Path) (change : Option FileChange) :
    Except Failure (List (Session × List Event)) :=
  match c.planFor file with
  | .error e => .error e
  | .ok plan =>
    match t.read file with
    | .error fault => .error (.fileAccess file.text fault)
    | .ok text => .ok (plan.kinds.map fun k => scan k.grammar file text change)

end Catalog

end DocScribe
