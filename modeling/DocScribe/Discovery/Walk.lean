/-
Walking a project: which files below its directory are taken.

A walk goes through a directory entry by entry and enters the directories
below. A directory that a walk has been in is not entered again, so a walk
ends even where links lead in circles; `fuel` is enough when it exceeds the
number of directories.
-/
import DocScribe.Discovery.IgnoreRules
import DocScribe.Event
import DocScribe.Settings.Basic

namespace DocScribe

/-- What a walk takes. -/
inductive Pass where
  /-- The files that can be documented and that no ignore file hides. -/
  | supported (hidden : IgnoreRules) (supports : Path → Bool)
  /-- The files that one of some globs matches. -/
  | included (globs : List Glob)

/-- What the rules of a walk are. -/
structure Walk where
  tree : FileTree
  root : Path
  exclude : IgnoreRules
  pass : Pass

/-- What a walk has come to. -/
structure Harvest where
  /-- The directories that were entered. -/
  visited : List Place := []
  files : List Path := []
  events : List Event := []

/-- The names of directories and files that are never looked at. -/
def isToolName (name : Text) : Bool :=
  name.head? = some '.' || name = "node_modules".toList || name = "target".toList ||
    name = "__pycache__".toList || name = "venv".toList

namespace Walk

/-- Whether the rules pass over an entry. -/
def skips (w : Walk) (path : Path) (isDirectory : Bool) : Bool :=
  (path.fileName?.map isToolName).getD false || w.exclude.leavesOut path isDirectory ||
    match w.pass with
    | .supported hidden _ => hidden.leavesOut path isDirectory
    | .included _ => false

/-- Whether the rules take a file. -/
def takes (w : Walk) (path : Path) : Bool :=
  match w.pass with
  | .supported _ supports => supports path
  | .included globs =>
    match path.below? w.root with
    | some below => globs.any fun g => g.accepts below.text
    | none => false

/-- Whether a directory has settings of its own and so is another project. -/
def isProject (w : Walk) (dir : Path) : Bool :=
  Settings.fileNames.any fun name => w.tree.isFile (dir.join name)

/-- The harvest with that of one entry; `enter` goes into a directory. -/
def addEntry (w : Walk) (enter : Path → Harvest → Harvest) (dir : Path) (h : Harvest) (name : Text) :
    Harvest :=
  let path := dir.join ⟨name⟩
  let isDirectory := w.tree.isDirectory path
  if w.skips path isDirectory then h
  else if isDirectory then
    if w.isProject path then h else enter path h
  else if w.takes path then
    { h with files := h.files ++ [path], events := h.events ++ [.discovered (path.relativeTo w.root)] }
  else h

/-- The harvest with that of a directory. -/
def addDirectory (w : Walk) : Nat → Path → Harvest → Harvest
  | 0, _, h => h
  | fuel + 1, dir, h =>
    match w.tree.directory? dir with
    | none => h
    | some place =>
      if h.visited.contains place then { h with events := h.events ++ [.visitedBefore dir] }
      else
        (w.tree.entries place).foldl (w.addEntry (w.addDirectory fuel) dir)
          { h with visited := place :: h.visited }

/-- What the walk of a project comes to. -/
def harvest (w : Walk) : Harvest := w.addDirectory (w.tree.nodes.length + 2) w.root {}

end Walk
end DocScribe
