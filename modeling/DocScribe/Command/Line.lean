/-
Command lines: the commands of the tool and how their arguments are read.

Options may stand before or after the command when they belong to both. The
value of an option is looked at when the next option, the next file or the
end comes up, so of two faults the one that is met first is reported.
-/
import DocScribe.Path

namespace DocScribe
namespace Command

/-- What the tool can be told to do. -/
inductive Verb where
  | init
  | start
  | diff
  | list
  deriving DecidableEq

/-- The options of the tool. -/
inductive OptionKey where
  | path
  | verbose
  | noColor
  | placeholders
  | yes
  | dryRun
  | patches
  | format
  | help
  | version
  deriving DecidableEq

/-- How a listing is written. -/
inductive ListFormat where
  | text
  | json
  deriving DecidableEq

namespace OptionKey

def long : OptionKey → Text
  | path => "path"
  | verbose => "verbose"
  | noColor => "no-color"
  | placeholders => "placeholders"
  | yes => "yes"
  | dryRun => "dry-run"
  | patches => "patches"
  | format => "format"
  | help => "help"
  | version => "version"

def short? : OptionKey → Option Char
  | path => some 'p'
  | verbose => some 'v'
  | yes => some 'y'
  | help => some 'h'
  | version => some 'V'
  | _ => none

def takesValue : OptionKey → Bool
  | path | patches | format => true
  | _ => false

/-- An option as messages show it. -/
def shown (o : OptionKey) : Text :=
  let value : Text := match o with
    | path => " <PATH>"
    | patches => " <PATCHES>"
    | format => " <FORMAT>"
    | _ => []
  ['-', '-'] ++ o.long ++ value

end OptionKey

/-- The options that every command has. -/
def sharedOptions : List OptionKey := [.path, .verbose, .noColor, .help]

/-- The options that can be given after a command, or before any. -/
def options : Option Verb → List OptionKey
  | none => .version :: sharedOptions
  | some .init => sharedOptions
  | some .start => [.placeholders, .yes, .dryRun] ++ sharedOptions
  | some .diff => [.patches, .placeholders, .yes, .dryRun] ++ sharedOptions
  | some .list => .format :: sharedOptions

/-- Whether files can be named after a command. -/
def takesFiles : Option Verb → Bool
  | some .start | some .list => true
  | _ => false

def Verb.all : List Verb := [.init, .start, .diff, .list]

def Verb.name : Verb → Text
  | init => "init"
  | start => "start"
  | diff => "diff"
  | list => "list"

/-- The word that asks for help in the place of a command. -/
def helpWord : Text := "help"

/-- Why a command line is not one. -/
inductive UsageFault where
  | unknownCommand (word : Text)
  | unexpected (argument : Text)
  | missingValue (shown : Text)
  | badValue (value : Text) (o : OptionKey)
  | repeated (o : OptionKey)
  | extraValue (value : Text) (o : OptionKey)
  | missingRequired (o : OptionKey)
  deriving DecidableEq

/-- The wording of a fault. -/
def UsageFault.message : UsageFault → Text
  | unknownCommand word => "unrecognized subcommand '" ++ word ++ "'"
  | unexpected argument => "unexpected argument '" ++ argument ++ "' found"
  | missingValue shown => "a value is required for '" ++ shown ++ "' but none was supplied"
  | badValue value o => "invalid value '" ++ value ++ "' for '" ++ o.shown ++ "'"
  | repeated o => "the argument '" ++ o.shown ++ "' cannot be used multiple times"
  | extraValue value o =>
    "unexpected value '" ++ value ++ "' for '" ++ o.shown ++ "' found; no more were expected"
  | missingRequired o => "the following required arguments were not provided:\n  " ++ o.shown

/-- Why reading a command line ends early. -/
inductive Stop where
  | fault (f : UsageFault)
  | help
  | version
  deriving DecidableEq

/-- What was read last and not looked at yet. -/
inductive Pending where
  | option (o : OptionKey) (value : Option Text)
  | files (names : List Text)

/-- What has been read at one level of the command line. -/
structure Reading where
  flags : List OptionKey := []
  path : Option Text := none
  patches : Option Text := none
  format : Option ListFormat := none
  files : List Text := []
  pending : Option Pending := none
  /-- Two dashes stood alone: what follows is no option. -/
  trailing : Bool := false

namespace Reading

def has (r : Reading) : OptionKey → Bool
  | .path => r.path.isSome
  | .patches => r.patches.isSome
  | .format => r.format.isSome
  | o => r.flags.contains o

/-- A flag taken. -/
def setFlag (r : Reading) (o : OptionKey) : Except Stop Reading :=
  match o with
  | .help => .error .help
  | .version => .error .version
  | o => if r.has o then .error (.fault (.repeated o)) else .ok { r with flags := o :: r.flags }

/-- The way of listing that a word names. -/
def listFormat? (t : Text) : Option ListFormat :=
  if t = "text".toList then some .text else if t = "json".toList then some .json else none

/-- An option taken with its value. -/
def setValue (r : Reading) (o : OptionKey) (value : Text) : Except Stop Reading :=
  if r.has o then .error (.fault (.repeated o))
  else if value.isEmpty then .error (.fault (.missingValue o.shown))
  else
    match o with
    | .path => .ok { r with path := some value }
    | .patches => .ok { r with patches := some value }
    | .format =>
      match listFormat? value with
      | some f => .ok { r with format := some f }
      | none => .error (.fault (.badValue value o))
    | _ => .ok r

/-- What was read last looked at. -/
def settle (r : Reading) : Except Stop Reading :=
  match r.pending with
  | none => .ok r
  | some (.option o none) => .error (.fault (.missingValue o.shown))
  | some (.option o (some value)) => { r with pending := none }.setValue o value
  | some (.files names) =>
    if names.any List.isEmpty then .error (.fault (.missingValue "[FILES]..."))
    else .ok { r with pending := none, files := r.files ++ names }

/-- Whether the next word is the value of an option. -/
def awaitsValue (r : Reading) : Bool :=
  match r.pending with
  | some (.option _ none) => true
  | _ => false

/-- An option met, with the value that is attached to it. -/
def meet (r : Reading) (o : OptionKey) (attached : Option Text) : Except Stop Reading :=
  match o.takesValue, attached with
  | true, some value => do (← r.settle).setValue o value
  | true, none => do .ok { ← r.settle with pending := some (.option o none) }
  | false, some value => .error (.fault (.extraValue value o))
  | false, none => do (← r.settle).setFlag o

/-- A long option, without its dashes. -/
def meetLong (r : Reading) (v : Option Verb) (t : Text) : Except Stop Reading :=
  let name := t.takeWhile (· != '=')
  let attached := if t.contains '=' then some (t.drop (name.length + 1)) else none
  match (options v).find? fun o => o.long == name with
  | some o => r.meet o attached
  | none => .error (.fault (.unexpected (['-', '-'] ++ name)))

/-- Short options in a row, without the dash. What follows one that takes a
value is its value. -/
def meetShort (v : Option Verb) : Reading → Text → Except Stop Reading
  | r, [] => .ok r
  | r, c :: t =>
    match (options v).find? fun o => o.short? == some c with
    | none => .error (.fault (.unexpected ['-', c]))
    | some o =>
      if o.takesValue then
        r.meet o (if t.isEmpty then none else some ((Text.dropLead? ['='] t).getD t))
      else (r.meet o none).bind fun r => meetShort v r t

/-- A word that is neither option nor command. -/
def meetWord (r : Reading) (v : Option Verb) (t : Text) : Except Stop Reading :=
  match !r.trailing, r.pending with
  | true, some (.option o none) => .ok { r with pending := some (.option o (some t)) }
  | _, pending =>
    if takesFiles v then
      match pending with
      | some (.files names) => .ok { r with pending := some (.files (names ++ [t])) }
      | _ => do .ok { ← r.settle with pending := some (.files [t]) }
    else if v.isSome then .error (.fault (.unexpected t))
    else if r.trailing && (t = helpWord || Verb.all.any fun v => v.name = t) then .error (.fault (.unexpected t))
    else .error (.fault (.unknownCommand t))

/-- Whether a word is options. -/
def isOption (t : Text) : Bool := t.head? = some '-' && t ≠ ['-']

/-- One level of a command line: what was read, and the command that follows
with its arguments. -/
def read (v : Option Verb) : Reading → List Text → Except Stop (Reading × Option (Verb × List Text))
  | r, [] => .ok (r, none)
  | r, t :: ts =>
    let command := if v.isNone && !r.trailing && !r.awaitsValue then Verb.all.find? fun c => c.name == t else none
    match command with
    | some c => .ok (r, some (c, ts))
    | none =>
      if v.isNone && !r.trailing && !r.awaitsValue && t = helpWord then
        match ts.find? fun word => !(Verb.all.any fun c => c.name = word) with
        | some word => .error (.fault (.unknownCommand word))
        | none => .error .help
      else if r.trailing || !isOption t then (r.meetWord v t).bind fun r => read v r ts
      else if t = ['-', '-'] then read v { r with trailing := true } ts
      else
        match Text.dropLead? ['-', '-'] t with
        | some long => (r.meetLong v long).bind fun r => read v r ts
        | none => (meetShort v r (t.drop 1)).bind fun r => read v r ts

end Reading

/-- A command with what it needs to know. -/
inductive Task where
  | init
  | start (files : List Path) (placeholders yes dryRun : Bool)
  | diff (patches : Path) (placeholders yes dryRun : Bool)
  | list (files : List Path) (format : ListFormat)

/-- A command line that was understood. -/
structure Invocation where
  /-- The directory of the project. -/
  path : Option Path
  verbose : Bool
  noColor : Bool
  task : Option Task

/-- The task that was read. -/
def taskOf (v : Verb) (r : Reading) : Except Stop Task :=
  let placeholders := r.has .placeholders
  let yes := r.has .yes
  let dryRun := r.has .dryRun
  match v with
  | .init => .ok .init
  | .start => .ok (.start (r.files.map Path.mk) placeholders yes dryRun)
  | .diff =>
    match r.patches with
    | some patches => .ok (.diff ⟨patches⟩ placeholders yes dryRun)
    | none => .error (.fault (.missingRequired .patches))
  | .list => .ok (.list (r.files.map Path.mk) (r.format.getD .text))

/-- A command line read. -/
def parse (arguments : List Text) : Except Stop Invocation := do
  let (outer, rest) ← Reading.read none {} arguments
  match rest with
  | none =>
    let outer ← outer.settle
    .ok ⟨outer.path.map Path.mk, outer.has .verbose, outer.has .noColor, none⟩
  | some (verb, arguments) =>
    let (inner, _) ← Reading.read (some verb) {} arguments
    let inner ← inner.settle
    let task ← taskOf verb inner
    let outer ← outer.settle
    .ok ⟨(inner.path <|> outer.path).map Path.mk, inner.has .verbose || outer.has .verbose,
      inner.has .noColor || outer.has .noColor, some task⟩

end Command
end DocScribe
