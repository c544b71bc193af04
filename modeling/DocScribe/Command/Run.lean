/-
Carrying out commands.

A command is carried out on a tree and ends with a status, what it printed,
and the tree as it left it. Settings that do not hold up end a command before
any file is looked at.
-/
import DocScribe.Command.Console
import DocScribe.Command.Sample
import DocScribe.Change.Decode
import DocScribe.Discovery.Basic
import DocScribe.Document.Basic
import DocScribe.Json.Printer
import DocScribe.Settings.Load

namespace DocScribe
namespace Command

/-- How a command ended. -/
structure Finished where
  status : Status
  output : Text := []
  notices : List Notice := []
  events : List Event := []
  tree : FileTree

/-- The directory that a tree is looked at from, as a path. -/
def currentDirectory (t : FileTree) : Path := ⟨'/' :: Text.join ['/'] t.here⟩

/-- Makes the settings file of a new project. -/
def runInit (t : FileTree) (root : Path) : Finished :=
  match Settings.locate? t root with
  | some file =>
    { status := .success, output := "Config file already exists: " ++ file.text ++ ['\n'], tree := t }
  | none =>
    match t.write (root.join ⟨"dyc.toml"⟩) sampleSettings with
    | .error fault => { status := .fatal, notices := [.notWritten fault], tree := t }
    | .ok tree =>
      { status := .success
        output := "Created dyc.toml\n\nNext steps:\n" ++
          "  1. Run `dyc list` to see what is undocumented\n".toList ++
          "  2. Run `dyc start` to write the documentation\n".toList
        tree }

/-- A command that could not be carried out. -/
def gaveUp (t : FileTree) (e : Failure) (events : List Event) : Finished :=
  { status := .fatal, notices := [.report e], events, tree := t }

/-- Goes on with the settings of a project and their catalog, if they hold
up. -/
def withCatalog (t : FileTree) (root : Path) (go : Settings → Catalog → Finished) : Finished :=
  match Settings.load t root with
  | .error e => gaveUp t e []
  | .ok loaded =>
    let settings := loaded.getD {}
    let catalog := Catalog.ofFormats settings.allFormats
    if catalog.failures.isEmpty then go settings catalog
    else
      { status := .fatal
        notices := catalog.failures.map .report ++ [.badSettings catalog.failures.length]
        tree := t }

/-- The files that a command is about: those named, or those of the project. -/
def selectFiles (t : FileTree) (root : Path) (named : List Path) (s : Settings) (c : Catalog) :
    Except Failure (List Path) × List Event :=
  if named.isEmpty then Discovery.collect t root s c.supports else (.ok (named.map root.join), [])

/-- A terminal: how the questions of the tool are answered on it, and what has
been printed on it. -/
structure Terminal where
  State : Type
  answer : (q : Question) → State → Except Failure q.Answer × State
  print : Text → State → State
  /-- What there is before the first question. -/
  start : State
  printed : State → Text

namespace Terminal

/-- No question has an answer without a terminal; what is printed is kept. -/
def unattended : Terminal where
  State := Text
  answer _ s := (.error (.io "not a terminal"), s)
  print t s := s ++ t
  start := []
  printed := id

/-- Every question is answered with text to be filled in later, and nothing is
printed. -/
def placeholders : Terminal where
  State := Unit
  answer := Prompter.placeholder.answer
  print _ s := s
  start := ()
  printed _ := []

/-- The prompter of a session on a terminal: files are announced on it, and a
confirmation that was given in advance is not asked for. -/
def prompter (terminal : Terminal) (root : Path) (yes : Bool) : Prompter terminal.State where
  answer q s :=
    match q with
    | .confirm file => if yes then (.ok true, s) else terminal.answer (.confirm file) s
    | q => terminal.answer q s
  announce file s := terminal.print (['\n'] ++ (file.relativeTo root).text ++ ['\n']) s

end Terminal

/-- What is printed about a changed file. -/
def changedText (color : Bool) (root : Path) (dryRun : Bool) (r : FileReport) : Text :=
  let (verb, paint) : Text × Paint := if dryRun then ("Would document", .yellow) else ("Documented", .green)
  painted color paint verb ++ ' ' :: (r.path.relativeTo root).text ++ " (" ++ Text.ofNat r.documentedCount ++
    " block(s))\n" ++ if dryRun then diffText color r.before r.updated else []

/-- What is printed after documenting. -/
def summaryText (color : Bool) (root : Path) (dryRun : Bool) (r : RunReport) : Text :=
  let changed := r.files.filter FileReport.changed
  let verb : Text := if dryRun then "Would document" else "Documented"
  changed.flatMap (changedText color root dryRun) ++
    r.skipped.flatMap (fun p => "Skipped ".toList ++ (p.relativeTo root).text ++ ['\n']) ++
    if changed.isEmpty then "Nothing to document.\n".toList
    else
      '\n' :: verb ++ " " ++ Text.ofNat r.documentedCount ++ " construct(s) across " ++
        Text.ofNat changed.length ++ " file(s).\n"

/-- What is said about the files that failed. -/
def failureNotices (root : Path) (r : RunReport) : List Notice :=
  r.failures.map fun (p, e) => .file (p.relativeTo root).text e

/-- Documents files with a documenter and tells what came of it. `printed`
gives what the prompter printed. -/
def documentWith {σ : Type} (d : Documenter σ) (color : Bool) (t : FileTree) (root : Path) (files : List Path)
    (changes : Option ChangeSet) (prompt : σ) (printed : σ → Text) : Finished :=
  let (result, w) := (d.documentFiles files changes).run.run { tree := t, prompt }
  match result with
  | .ok r =>
    { status := if r.isOk then .success else .failures
      output := printed w.prompt ++ summaryText color root d.dryRun r
      notices := failureNotices root r
      events := w.events
      tree := w.tree }
  | .error .cancelled =>
    { status := .cancelled, output := printed w.prompt, notices := [.aborted], events := w.events, tree := w.tree }
  | .error e =>
    { status := .fatal, output := printed w.prompt, notices := [.report e], events := w.events, tree := w.tree }

/-- How the questions of a command are answered: with placeholders, or on the
terminal. -/
def Terminal.orPlaceholders (terminal : Terminal) : Bool → Terminal
  | true => .placeholders
  | false => terminal

/-- Who documents the files of a command. -/
def documenterFor (terminal : Terminal) (root : Path) (catalog : Catalog) (placeholders yes dryRun : Bool) :
    Documenter (terminal.orPlaceholders placeholders).State :=
  ⟨catalog, (terminal.orPlaceholders placeholders).prompter root yes, !placeholders, dryRun⟩

/-- Documents files with placeholders, or by asking. -/
def runDocument (terminal : Terminal) (color : Bool) (t : FileTree) (root : Path) (catalog : Catalog)
    (files : List Path) (changes : Option ChangeSet) (placeholders yes dryRun : Bool) : Finished :=
  if files.isEmpty then { status := .success, output := "No files to document.\n", tree := t }
  else
    documentWith (documenterFor terminal root catalog placeholders yes dryRun) color t root files changes
      (terminal.orPlaceholders placeholders).start (terminal.orPlaceholders placeholders).printed

/-- Documents the files that are named, or those of the project. -/
def runStart (terminal : Terminal) (color : Bool) (t : FileTree) (root : Path) (named : List Path)
    (placeholders yes dryRun : Bool) : Finished :=
  withCatalog t root fun settings catalog =>
    let (files, events) := selectFiles t root named settings catalog
    match files with
    | .error e => gaveUp t e events
    | .ok files =>
      let f := runDocument terminal color t root catalog files none placeholders yes dryRun
      { f with events := events ++ f.events }

/-- The change set in a file. -/
def loadChanges (t : FileTree) (file : Path) : Except Failure ChangeSet :=
  match t.read file with
  | .ok text => ChangeSet.parse file.text text
  | .error fault => .error (.badPatch file.text fault.message)

/-- Documents what a change touched. -/
def runDiff (terminal : Terminal) (color : Bool) (t : FileTree) (root patches : Path)
    (placeholders yes dryRun : Bool) : Finished :=
  withCatalog t root fun _ catalog =>
    match loadChanges t (root.join patches) with
    | .error e => gaveUp t e []
    | .ok changes =>
      let files := (changes.paths.map root.join).filter catalog.supports
      runDocument terminal color t root catalog files (some changes) placeholders yes dryRun

/-- A construct in a listing; a file header is shown by its file. -/
structure Entry where
  file : Text
  line : Nat
  kind : Kind
  name : Text
  arguments : List Text

/-- A candidate as a listing shows it. -/
def entryOf (root : Path) (c : Candidate) : Entry :=
  { file := (c.file.relativeTo root).text
    line := c.line
    kind := c.kind
    name := if c.kind = .header then ((Path.mk c.name).relativeTo root).text else c.name
    arguments := c.arguments }

def Entry.json (e : Entry) : JsonValue :=
  .object [("arguments", .array (e.arguments.map .text)), ("file", .text e.file),
    ("kind", .text e.kind.name), ("line", .nat e.line), ("name", .text e.name)]

def Entry.textLine (color : Bool) (e : Entry) : Text :=
  e.file ++ ':' :: Text.ofNat e.line ++ ' ' :: painted color .bold e.kind.name ++ ' ' :: e.name ++ ['\n']

/-- What a listing prints. -/
def listingText (color : Bool) (entries : List Entry) : ListFormat → Text
  | .json => (JsonValue.array (entries.map Entry.json)).pretty ++ ['\n']
  | .text =>
    if entries.isEmpty then "Everything is documented.\n"
    else
      entries.flatMap (Entry.textLine color) ++ "\nFound ".toList ++ Text.ofNat entries.length ++
        " undocumented construct(s).\n"

/-- Lists the constructs without documentation. A file that cannot be scanned
is told about and passed over. -/
def runList (color : Bool) (t : FileTree) (root : Path) (named : List Path) (format : ListFormat) : Finished :=
  withCatalog t root fun settings catalog =>
    let (files, events) := selectFiles t root named settings catalog
    match files with
    | .error e => gaveUp t e events
    | .ok files =>
      let scans := files.map fun file => (file, catalog.scanFile t file none)
      let found := scans.flatMap fun s => (s.2.toOption.getD [])
      let entries := found.flatMap fun s => s.1.candidates.map (entryOf root)
      { status := .success
        output := listingText color entries format
        notices := scans.filterMap fun s =>
          match s.2 with
          | .ok _ => none
          | .error e => some (.file (s.1.relativeTo root).text e)
        events := events ++ found.flatMap (·.2)
        tree := t }

/-- Carries out a task in the directory of a project. -/
def runTask (terminal : Terminal) (color : Bool) (t : FileTree) (root : Path) : Task → Finished
  | .init => runInit t root
  | .start files placeholders yes dryRun => runStart terminal color t root files placeholders yes dryRun
  | .diff patches placeholders yes dryRun => runDiff terminal color t root patches placeholders yes dryRun
  | .list files format => runList color t root files format

/-- The name and version of the tool. -/
def versionText : Text := "dyc_cli 0.3.0\n"

/-- A short account of the commands. -/
def helpText : Text :=
  "Usage: dyc [OPTIONS] [COMMAND]\n\nCommands:\n" ++
    "  init   Create a sample dyc.toml\n".toList ++
    "  start  Document every undocumented construct\n".toList ++
    "  diff   Document only what a patch touched\n".toList ++
    "  list   List undocumented constructs\n".toList

/-- Carries out a command line on a terminal. Colours are used where the
terminal has them and the command line allows them. -/
def runOn (terminal : Terminal) (terminalColor : Bool) (t : FileTree) (arguments : List Text) : Finished :=
  match parse arguments with
  | .error (.fault f) => { status := .fatal, notices := [.usage f], tree := t }
  | .error .help => { status := .success, output := helpText, tree := t }
  | .error .version => { status := .success, output := versionText, tree := t }
  | .ok invocation =>
    match invocation.task with
    | none => { status := .failures, notices := [.noCommand], tree := t }
    | some task =>
      runTask terminal (terminalColor && !invocation.noColor) t (invocation.path.getD (currentDirectory t)) task

/-- Carries out a command line without a terminal to ask on. -/
def run (terminalColor : Bool) (t : FileTree) (arguments : List Text) : Finished :=
  runOn .unattended terminalColor t arguments

end Command
end DocScribe
