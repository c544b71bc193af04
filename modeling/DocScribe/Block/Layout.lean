/-
Laying out documentation blocks: from what was told about a construct to the
lines of its block, then to the indented block.
-/
import DocScribe.Block.Arguments
import DocScribe.Block.Basic
import DocScribe.Block.Wrap
import DocScribe.Scan.Candidate

namespace DocScribe

/-- How the blocks of one kind of construct are laid out. -/
structure Style where
  docOpen : Text
  docClose : Text
  /-- The most words on a line of the docstring; zero leaves them on one line. -/
  wordsPerLine : Nat
  breakAfterOpen : Bool
  breakAfterDocstring : Bool
  breakBeforeClose : Bool
  /-- The indent unit, as white space. -/
  indent : Text
  /-- The indent of the lines between the delimiters, as white space. -/
  innerIndent : Text
  arguments : ArgumentStyle
  template : Option Text

namespace Style

/-- The style that rules describe. An empty title is no title. -/
def ofRules (c : ConstructRules) (a : ArgumentRules) : Style :=
  { docOpen := c.docOpen
    docClose := c.docClose
    wordsPerLine := c.wordsPerLine
    breakAfterOpen := c.breakAfterOpen
    breakAfterDocstring := c.breakAfterDocstring
    breakBeforeClose := c.breakBeforeClose
    indent := indentUnit c.indent
    innerIndent := c.innerIndent.resolve c.indent
    arguments :=
      { title := a.title.filter fun t => !t.isEmpty
        underline := a.underline
        inline := a.inline
        lead := a.lead
        addType := a.addType }
    template := c.template }

/-- What a block says when nothing was told. -/
def missingDocstring : Text := "Missing Docstring!"

/-- The docstring as the block shows it. -/
def docstring (s : Style) (d : DocText) : Text :=
  if Text.allBlank d.docstring then missingDocstring else wrapWords d.docstring s.wordsPerLine

/-- The lines of the argument section. -/
def argumentLines (s : Style) (d : DocText) : List Text := s.arguments.sectionLines d.arguments

/-- An empty line where one is asked for. -/
def blankIf (wanted : Bool) : List Text := if wanted then [[]] else []

/-- The parts of a block that stand on lines of their own. -/
def parts (s : Style) (d : DocText) : List Text :=
  let arguments := s.argumentLines d
  [s.docOpen] ++ blankIf s.breakAfterOpen ++ [s.docstring d] ++ blankIf s.breakAfterDocstring ++
    arguments ++ blankIf (!arguments.isEmpty && s.breakBeforeClose) ++ [s.docClose]

end Style

/-- A line of a block indented; a blank line becomes empty. -/
def indentLine (margin line : Text) : Text := if Text.allBlank line then [] else margin ++ line

/-- The lines of a block after its first: all but the last have the inner
indent too. -/
def indentLater (inner margin : Text) : List Text → List Text
  | [] => []
  | [last] => [indentLine margin last]
  | line :: rest => indentLine (margin ++ inner) line :: indentLater inner margin rest

/-- The lines of a block indented. -/
def indentLines (inner margin : Text) : List Text → List Text
  | [] => []
  | first :: rest => indentLine margin first :: indentLater inner margin rest

/-- A block indented, each of its lines ended by a line feed. -/
def indentBlock (block inner margin : Text) : Text :=
  ((indentLines inner margin (Text.segments block)).map fun line => line ++ ['\n']).flatten

end DocScribe
