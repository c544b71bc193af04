/-
Lines.

`segments` cuts a text at every line feed and keeps the last piece even when
it is empty. `lines` counts only what a line feed ends or what is left over,
and drops the carriage return of a Windows line ending. `lineOf` is the line
that holds an offset: one more than the number of line feeds before it.
-/
import DocScribe.Text.Blank

namespace DocScribe
namespace Text

/-- The pieces of a text between its line feeds. -/
def segments (t : Text) : List Text := pieces (· == '\n') t

/-- A line without the carriage return at its end. -/
def dropReturn (line : Text) : Text := (dropTail? ['\r'] line).getD line

/-- The lines of the pieces of a text: every piece but the last was ended by
a line feed, and the last counts only when it is not empty. -/
def linesOfSegments : List Text → List Text
  | [] => []
  | [last] => if last.isEmpty then [] else [last]
  | line :: rest => dropReturn line :: linesOfSegments rest

/-- The lines of a text, without their line endings. -/
def lines (t : Text) : List Text := linesOfSegments (segments t)

/-- Lines put together with a line feed between them. -/
def joinLines (ls : List Text) : Text := join ['\n'] ls

/-- How many line feeds stand at bytes before an offset. -/
def feedsBefore : Text → Nat → Nat
  | [], _ => 0
  | c :: t, offset =>
    if offset = 0 then 0
    else (if c = '\n' then 1 else 0) + feedsBefore t (offset - c.utf8Size)

/-- The line, counted from one, that holds an offset. -/
def lineOf (t : Text) (offset : Nat) : Nat := 1 + feedsBefore t offset

/-- The part of a text after its last line feed. -/
def lastSegment (t : Text) : Text := ((t.reverse).takeWhile (· != '\n')).reverse

/-- The line ending of a text: that of its first line, a plain line feed when
there is none. -/
def lineEnding (t : Text) : Text :=
  let first := t.takeWhile (· != '\n')
  if t.contains '\n' && endsWith first ['\r'] then ['\r', '\n'] else ['\n']

end Text
end DocScribe
