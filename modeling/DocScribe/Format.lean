/-
Formats: everything the tool knows about the files of one extension, as the
settings give it, and the format for Python that is built in.
-/
import DocScribe.Construct
import DocScribe.Indent

namespace DocScribe

/-- The indent of the lines between the delimiters of a block: one indent
unit or none, or a unit of its own. -/
inductive InnerIndent where
  | enabled (on : Bool)
  | unit (description : Text)
  deriving DecidableEq

/-- The white space an inner indent stands for, given the indent unit. -/
def InnerIndent.resolve : InnerIndent → Text → Text
  | .enabled false, _ => []
  | .enabled true, indent => indentUnit indent
  | .unit description, _ => indentUnit description

/-- How one kind of construct is recognised and documented. Fields that do
not apply to a kind are ignored. -/
structure ConstructRules where
  enabled : Bool := true
  /-- The token that starts a construct. -/
  indicator : Text := []
  /-- The token that ends a construct's signature. -/
  ending : Text := []
  /-- The token that starts the list of ancestors of a class. -/
  ancestry : Option Text := none
  docOpen : Text := []
  docClose : Text := []
  /-- The pattern that finds an opening delimiter, in place of `docOpen`. -/
  docOpenPattern : Option Text := none
  /-- The pattern that finds a closing delimiter, in place of `docClose`. -/
  docClosePattern : Option Text := none
  before : Bool := false
  /-- The block follows the indentation of the construct's body. -/
  withinScope : Bool := false
  /-- The tokens are patterns, not literal text. -/
  regex : Bool := false
  /-- The most words on a line of the docstring; zero leaves them on one line. -/
  wordsPerLine : Nat := 10
  indent : Text := "4 spaces"
  innerIndent : InnerIndent := .enabled false
  breakAfterOpen : Bool := false
  breakAfterDocstring : Bool := false
  breakBeforeClose : Bool := false
  /-- Names of constructs that are never documented. -/
  ignore : List Text := []
  /-- A template that replaces the layout of the block. -/
  template : Option Text := none

/-- How the arguments of a method are found and laid out. -/
structure ArgumentRules where
  opening : Text := "("
  closing : Text := ")"
  separator : Text := ","
  /-- The tokens are patterns, not literal text. -/
  regex : Bool := false
  /-- Arguments that are never documented. -/
  ignore : List Text := []
  addType : Bool := false
  title : Option Text := none
  underline : Bool := false
  inline : Bool := false
  /-- Text before each argument entry. -/
  lead : Text := []

/-- Everything known about the files of one extension. -/
structure Format where
  extension : Text
  language : Option Text := none
  header : ConstructRules := {}
  classes : ConstructRules := {}
  methods : ConstructRules := {}
  arguments : ArgumentRules := {}

/-- The rules of a format for one kind of construct. -/
def Format.rules (f : Format) : Kind → ConstructRules
  | .header => f.header
  | .classDef => f.classes
  | .method => f.methods

/-- The built-in format for Python. -/
def Format.python : Format :=
  let quoted : ConstructRules := { docOpen := "\"\"\"", docClose := "\"\"\"" }
  { extension := "py"
    language := some "python"
    header := quoted
    classes := { quoted with indicator := "class", ancestry := some "(", ending := ":", withinScope := true }
    methods := { quoted with
      indicator := "def", ending := ":", withinScope := true, breakAfterDocstring := true }
    arguments :=
      { ignore := ["self", "cls"], addType := true, title := some "Parameters", underline := true } }

/-- The form in which extensions are compared: no blanks around it, no dot
before it, small letters. -/
def normalExtension (t : Text) : Text :=
  Text.asciiLower ((Text.trim t).dropWhile (· == '.'))

end DocScribe
