/-
What a command prints: text in colours, and notices about what went wrong.
-/
import DocScribe.Command.Line
import DocScribe.Failure
import DocScribe.LineDiff.Basic

namespace DocScribe
namespace Command

/-- The colours and weights of printed text. -/
inductive Paint where
  | red
  | green
  | yellow
  | bold

/-- The numbers that turn a paint on and off. -/
def Paint.codes : Paint → Text × Text
  | red => ("31", "39")
  | green => ("32", "39")
  | yellow => ("33", "39")
  | bold => ("1", "0")

/-- The character that starts a terminal sequence. -/
def escape : Char := Char.ofNat 27

/-- A text painted, where colours are on. -/
def painted (color : Bool) (p : Paint) (t : Text) : Text :=
  if color then [escape, '['] ++ p.codes.1 ++ ['m'] ++ t ++ [escape, '['] ++ p.codes.2 ++ ['m'] else t

/-- Something that went wrong, as the user is told. -/
inductive Notice where
  /-- A full report on what ended the command. -/
  | report (e : Failure)
  | badSettings (count : Nat)
  /-- What went wrong with one file. -/
  | file (shown : Text) (e : Failure)
  /-- The settings file could not be made. -/
  | notWritten (fault : AccessFault)
  | aborted
  | usage (f : UsageFault)
  | noCommand

/-- A report on a failure. -/
def reportText (e : Failure) : Text :=
  e.code ++ "\n\n  x " ++ e.message ++
    match e.help with
    | some help => "\n  help: " ++ help
    | none => []

/-- The wording of a notice. -/
def Notice.text (color : Bool) : Notice → Text
  | report e => reportText e
  | badSettings count => painted color .red "error:" ++ ' ' :: Text.ofNat count ++ " configuration error(s) found"
  | file shown e => painted color .red "error:" ++ ' ' :: shown ++ ": " ++ e.message
  | notWritten fault => painted color .red "error:" ++ ' ' :: fault.message
  | aborted => painted color .yellow "aborted:" ++ " documentation cancelled"
  | usage f => "error: " ++ f.message
  | noCommand => "No subcommand specified. Run `dyc --help` for usage."

/-- The exit status of a command. -/
inductive Status where
  | success
  /-- Some file failed, or nothing was asked for. -/
  | failures
  /-- The command could not be carried out. -/
  | fatal
  | cancelled
  deriving DecidableEq

/-- The number of a status. -/
def Status.number : Status → Nat
  | success => 0
  | failures => 1
  | fatal => 2
  | cancelled => 130

/-- A line without an ending gets one. -/
def endedLine (t : Text) : Text :=
  if Text.endsWith t ['\n'] || Text.endsWith t ['\r'] then t else t ++ ['\n']

/-- A changed line as it is shown. -/
def changeText (color : Bool) : LineChange → Text
  | .kept line => "   " ++ endedLine line
  | .removed line => "  " ++ painted color .red ('-' :: endedLine line)
  | .added line => "  " ++ painted color .green ('+' :: endedLine line)

/-- The difference of two texts as it is shown. -/
def diffText (color : Bool) (old new : Text) : Text :=
  (LineDiff.changes old new).flatMap (changeText color)

end Command
end DocScribe
