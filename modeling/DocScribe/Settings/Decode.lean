/-
Reading settings from TOML.

Unknown keys are passed over and missing ones take their defaults. A record
may be written as a table, or as an array of its fields in order.
-/
import DocScribe.Failure
import DocScribe.Settings.Basic
import DocScribe.Toml.Parser

namespace DocScribe
namespace Settings

/-- Why a document is not settings. -/
inductive Fault where
  | notToml (fault : Toml.Fault)
  | wrongType (expected : Text)
  | missing (field : Text)

/-- The wording of a fault. -/
def Fault.message : Fault → Text
  | notToml fault => fault.message
  | wrongType expected => "invalid type, expected " ++ expected
  | missing field => "missing field " ++ field

/-- The fields of a record that are given. -/
abbrev Fields := List (Text × Toml.Value)

/-- The given fields of a record, of the fields that it can have. A date counts
as a record that gives none of them. -/
def fields (names : List Text) : Toml.Value → Except Fault Fields
  | .table entries => .ok entries
  | .array items => .ok (names.zip items)
  | .date => .ok []
  | _ => .error (.wrongType "table")

/-- A field read where it is given. -/
def Fields.get {α : Type} (fs : Fields) (name : Text) (read : Toml.Value → Except Fault α) (fallback : α) :
    Except Fault α :=
  match fs.lookup name with
  | some v => read v
  | none => .ok fallback

def asText : Toml.Value → Except Fault Text
  | .text t => .ok t
  | _ => .error (.wrongType "string")

def asOptionalText (v : Toml.Value) : Except Fault (Option Text) := (asText v).map some

def asBool : Toml.Value → Except Fault Bool
  | .bool b => .ok b
  | _ => .error (.wrongType "boolean")

/-- A number of words. -/
def asCount : Toml.Value → Except Fault Nat
  | .int (.ofNat n) => if n < 1 <<< 64 then .ok n else .error (.wrongType "count")
  | _ => .error (.wrongType "count")

def asList {α : Type} (read : Toml.Value → Except Fault α) : Toml.Value → Except Fault (List α)
  | .array items => items.mapM read
  | _ => .error (.wrongType "array")

def asTexts : Toml.Value → Except Fault (List Text) := asList asText

def asInnerIndent : Toml.Value → Except Fault InnerIndent
  | .bool b => .ok (.enabled b)
  | .text t => .ok (.unit t)
  | _ => .error (.wrongType "boolean or string")

/-- The rules of one kind of construct. -/
def asConstructRules (v : Toml.Value) : Except Fault ConstructRules := do
  let d : ConstructRules := {}
  let fs ← fields ["enabled", "indicator", "end", "end_name", "doc_open", "doc_close",
    "doc_open_pattern", "doc_close_pattern", "before", "within_scope", "regex", "words_per_line",
    "indent", "indent_content", "break_after_open", "break_after_docstring", "break_before_close",
    "ignore", "template"] v
  .ok
    { enabled := ← fs.get "enabled" asBool d.enabled
      indicator := ← fs.get "indicator" asText d.indicator
      ending := ← fs.get "end" asText d.ending
      ancestry := ← fs.get "end_name" asOptionalText d.ancestry
      docOpen := ← fs.get "doc_open" asText d.docOpen
      docClose := ← fs.get "doc_close" asText d.docClose
      docOpenPattern := ← fs.get "doc_open_pattern" asOptionalText d.docOpenPattern
      docClosePattern := ← fs.get "doc_close_pattern" asOptionalText d.docClosePattern
      before := ← fs.get "before" asBool d.before
      withinScope := ← fs.get "within_scope" asBool d.withinScope
      regex := ← fs.get "regex" asBool d.regex
      wordsPerLine := ← fs.get "words_per_line" asCount d.wordsPerLine
      indent := ← fs.get "indent" asText d.indent
      innerIndent := ← fs.get "indent_content" asInnerIndent d.innerIndent
      breakAfterOpen := ← fs.get "break_after_open" asBool d.breakAfterOpen
      breakAfterDocstring := ← fs.get "break_after_docstring" asBool d.breakAfterDocstring
      breakBeforeClose := ← fs.get "break_before_close" asBool d.breakBeforeClose
      ignore := ← fs.get "ignore" asTexts d.ignore
      template := ← fs.get "template" asOptionalText d.template }

/-- The rules of arguments. -/
def asArgumentRules (v : Toml.Value) : Except Fault ArgumentRules := do
  let d : ArgumentRules := {}
  let fs ← fields ["start_parameter", "end_parameter", "parameter_split", "regex", "ignore", "add_type",
    "title", "underline", "inline", "prefix"] v
  .ok
    { opening := ← fs.get "start_parameter" asText d.opening
      closing := ← fs.get "end_parameter" asText d.closing
      separator := ← fs.get "parameter_split" asText d.separator
      regex := ← fs.get "regex" asBool d.regex
      ignore := ← fs.get "ignore" asTexts d.ignore
      addType := ← fs.get "add_type" asBool d.addType
      title := ← fs.get "title" asOptionalText d.title
      underline := ← fs.get "underline" asBool d.underline
      inline := ← fs.get "inline" asBool d.inline
      lead := ← fs.get "prefix" asText d.lead }

/-- A format. Its extension must be given. -/
def asFormat (v : Toml.Value) : Except Fault Format := do
  let fs ← fields ["extension", "language", "top", "class", "method", "arguments"] v
  match fs.lookup "extension".toList with
  | none => .error (.missing "extension")
  | some extension =>
    .ok
      { extension := ← asText extension
        language := ← fs.get "language" asOptionalText none
        header := ← fs.get "top" asConstructRules {}
        classes := ← fs.get "class" asConstructRules {}
        methods := ← fs.get "method" asConstructRules {}
        arguments := ← fs.get "arguments" asArgumentRules {} }

/-- The patterns of a section. -/
def asPatterns (v : Toml.Value) : Except Fault (List Text) := do
  (← fields ["patterns"] v).get "patterns" asTexts []

/-- Settings from the entries of a document. -/
def ofEntries (fs : Fields) : Except Fault Settings := do
  .ok
    { fileList := (← fs.get "file_list" asTexts []).map Path.mk
      exclude := ← fs.get "exclude" asPatterns []
      includes := ← fs.get "include" asPatterns []
      disableGitignore := ← fs.get "disable_gitignore" asBool false
      formats := ← fs.get "formats" (asList asFormat) [] }

/-- Settings from the text of a settings file. -/
def parse (t : Text) : Except Failure Settings :=
  let read : Except Fault Settings :=
    match Toml.parse t with
    | .ok entries => ofEntries entries
    | .error fault => .error (.notToml fault)
  match read with
  | .ok s => .ok s
  | .error fault => .error (.settings (.unreadable fault.message))

end Settings
end DocScribe
