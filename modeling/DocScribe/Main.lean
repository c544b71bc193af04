/-
The command line of the tool.

The tree below the project's directory is read, the command is carried out on
it, and what it changed is written back. Everything that is decided is
decided by `DocScribe.Command.run`.
-/
import DocScribe.Command.Run

namespace DocScribe.Main

open DocScribe

/-- The name of a place. -/
def placeName (place : Place) : String := "/" ++ String.ofList (Text.join ['/'] place)

/-- The names that a path is made of. -/
def placeOf (path : String) : Place :=
  (Text.pieces (· == '/') path.toList).filter fun name => !name.isEmpty

/-- The node at a place, for a place that has one. -/
def readNode (place : Place) : IO (Option Node) := do
  let path := (← IO.currentDir) / placeName place
  try
    match (← path.symlinkMetadata).type with
    | .dir => return some .dir
    | .symlink =>
      try return some (.link ⟨(← IO.FS.realPath path).toString.toList⟩)
      catch _ => return some (.link ⟨"missing"⟩)
    | _ => return some (.file (.ofBytes (← IO.FS.readBinFile path).toList))
  catch _ => return none

/-- The nodes at a place and below it. -/
partial def readBelow (place : Place) : IO (List (Place × Node)) := do
  match ← readNode place with
  | none => return []
  | some .dir =>
    let path := (← IO.currentDir) / placeName place
    let mut nodes := [(place, Node.dir)]
    for entry in ← path.readDir do
      nodes := nodes ++ (← readBelow (place ++ [entry.fileName.toList]))
    return nodes
  | some node => return [(place, node)]

/-- A place and the directories above it. -/
def upward (place : Place) : List (Place × Node) :=
  (List.range place.length).map fun n => (place.take (n + 1), .dir)

/-- The tree that a command line is about: what is below the directory of the
project, and the directories that lead there. -/
def readTree (arguments : List Text) : IO FileTree := do
  let directory ← IO.currentDir
  let root : Text :=
    match Command.parse arguments with
    | .ok { path := some path, .. } => path.text
    | _ => ['.']
  let top ← try IO.FS.realPath (directory / String.ofList root) catch _ => pure directory
  let here := placeOf directory.toString
  let below ← readBelow (placeOf top.toString)
  let leading := (upward here ++ upward (placeOf top.toString)).eraseDups
  return { nodes := leading.filter (fun n => !(below.any fun m => m.1 == n.1)) ++ below, here }

/-- Writes the files that are not as they were. -/
def writeChanges (old new : FileTree) : IO Unit := do
  for (place, content) in new.files do
    if old.nodes.lookup place ≠ some (.file content) then
      match content with
      | .text t => IO.FS.writeFile (placeName place) (String.ofList t)
      | .bytes _ => pure ()

/-- An event as the log shows it. -/
def eventText (e : Event) : Text :=
  (if e.isWarning then " WARN " else "DEBUG ") ++ e.message ++
    e.fields.flatMap fun (name, value) =>
      match value with
      | .text t => ' ' :: name ++ '=' :: t
      | .number n => ' ' :: name ++ '=' :: Text.ofNat n

/-- Whether the output can show colours. -/
def hasColor : IO Bool := do
  if (← IO.getEnv "NO_COLOR").isSome then return false
  if (← IO.getEnv "FORCE_COLOR").isSome then return true
  (← IO.getStdout).isTty

end DocScribe.Main

open DocScribe in
/-- Carries out the command line that the program was called with. -/
def main (arguments : List String) : IO UInt32 := do
  let arguments := arguments.map String.toList
  let tree ← Main.readTree arguments
  let color ← Main.hasColor
  let finished := Command.run color tree arguments
  Main.writeChanges tree finished.tree
  let verbose :=
    match Command.parse arguments with
    | .ok invocation => invocation.verbose
    | _ => false
  for event in finished.events do
    if verbose || event.isWarning then IO.eprintln (String.ofList (Main.eventText event))
  IO.print (String.ofList finished.output)
  for notice in finished.notices do
    IO.eprintln (String.ofList (notice.text color))
  return UInt32.ofNat finished.status.number
