/-
The switches of a pattern, and what a written part means under them.
-/
import DocScribe.Pattern.Basic
import DocScribe.Pattern.Property

namespace DocScribe
namespace Pattern

/-- Why a text is not a pattern. -/
inductive Fault where
  | unclosedGroup
  | unopenedGroup
  | badGroupName
  | duplicateGroupName (name : Text)
  | unclosedClass
  | badRange
  | nothingToRepeat
  | badCount
  | badEscape
  | unknownProperty
  | badFlags
  | lookAround
  | notText
  | tooLarge
  | tooDeep

/-- The wording of a fault. -/
def Fault.message : Fault → Text
  | unclosedGroup => "unclosed group"
  | unopenedGroup => "unopened group"
  | badGroupName => "invalid group name"
  | duplicateGroupName name => "duplicate group name " ++ name
  | unclosedClass => "unclosed character class"
  | badRange => "invalid character class range"
  | nothingToRepeat => "repetition operator missing expression"
  | badCount => "invalid repetition count"
  | badEscape => "unrecognized escape sequence"
  | unknownProperty => "unknown property name"
  | badFlags => "invalid flags"
  | lookAround => "look-around is not supported"
  | notText => "pattern can match text that is not UTF-8"
  | tooLarge => "pattern is too large"
  | tooDeep => "pattern is nested too deeply"

/-- The switches in force at a place of a pattern. -/
structure Flags where
  caseless : Bool := false
  multiLine : Bool := false
  /-- The dot matches line feeds too. -/
  dotAll : Bool := false
  /-- Greedy and lazy repetition change their marks. -/
  swapGreed : Bool := false
  unicode : Bool := true
  crlf : Bool := false
  /-- Blanks and comments are skipped. -/
  verbose : Bool := false

namespace Flags

/-- One switch turned on or off. -/
def set (f : Flags) (on : Bool) : Char → Option Flags
  | 'i' => some { f with caseless := on }
  | 'm' => some { f with multiLine := on }
  | 's' => some { f with dotAll := on }
  | 'U' => some { f with swapGreed := on }
  | 'u' => some { f with unicode := on }
  | 'R' => some { f with crlf := on }
  | 'x' => some { f with verbose := on }
  | _ => none

/-- A set under these switches: made blind to case where asked. -/
def fold (f : Flags) (s : CharSet) : CharSet :=
  if f.caseless then (if f.unicode then .folded s else .asciiFolded s) else s

/-- A set that must not reach beyond ASCII unless Unicode is on. -/
def checked (f : Flags) (s : CharSet) : Except Fault CharSet :=
  if f.unicode then .ok s
  else if s.avoidsHighBytes then .ok (.inter s .ascii)
  else .error .notText

/-- The meaning of a dot. -/
def dot (f : Flags) : Except Fault CharSet :=
  if f.unicode then
    .ok (if f.dotAll then .any
      else if f.crlf then .compl (.union (.single '\n') (.single '\r'))
      else .compl (.single '\n'))
  else .error .notText

/-- The meaning of the start mark. -/
def startMark (f : Flags) : Anchor :=
  if f.multiLine then (if f.crlf then .startLineCrlf else .startLine) else .startText

/-- The meaning of the end mark. -/
def endMark (f : Flags) : Anchor :=
  if f.multiLine then (if f.crlf then .endLineCrlf else .endLine) else .endText

/-- The characters of words. -/
def wordSet (f : Flags) : CharSet := if f.unicode then .word else .asciiWord

/-- The meaning of a class named by one letter after a backslash. -/
def letterClass (f : Flags) (c : Char) : Except Fault CharSet :=
  let plain : CharSet := match c.toLower with
    | 'd' => if f.unicode then .digit else .asciiDigit
    | 's' => if f.unicode then .blank else .asciiBlank
    | _ => f.wordSet
  if c.isUpper then f.checked (.compl plain) else .ok plain

end Flags
end Pattern
end DocScribe
