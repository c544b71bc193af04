/-
Discovery: the files of a project that are to be documented.

Settings that list files are taken at their word. Otherwise the project is
walked for files that can be documented, then for files that the settings
include; the result is in the order of paths and names no file twice.
-/
import DocScribe.Discovery.Walk
import DocScribe.Sorting

namespace DocScribe
namespace Discovery

/-- A rule of the settings that is not one. -/
def badRule (table pattern : Text) (fault : Glob.Fault) : Failure :=
  .settings (.rule table pattern fault.message)

/-- The rules for what is left out. -/
def excludeRules (root : Path) (patterns : List Text) : Except Failure IgnoreRules :=
  patterns.foldlM (fun r pattern =>
    match r.addLine pattern with
    | .ok r => .ok r
    | .error fault => .error (badRule "exclude" pattern fault)) (IgnoreRules.empty root)

/-- The globs of what is taken in addition. -/
def includeGlobs (patterns : List Text) : Except Failure (List Glob) :=
  patterns.mapM fun pattern =>
    match Glob.parse { slashes := true, openClasses := false } pattern with
    | .ok g => .ok g
    | .error fault => .error (badRule "include" pattern fault)

/-- Neighbours that are the same path taken once. -/
def dropRepeats : List Path → List Path
  | [] => []
  | p :: rest =>
    match dropRepeats rest with
    | [] => [p]
    | q :: kept => if p.same q then p :: kept else p :: q :: kept

/-- The ignore rules of a project, and what is noted down about them. -/
def hiddenRules (t : FileTree) (root : Path) (s : Settings) : IgnoreRules × List Event :=
  if s.disableGitignore then (IgnoreRules.empty root, [])
  else
    let (rules, complete) := IgnoreRules.load t root
    (rules, if complete then [] else [.badIgnoreFile])

/-- The files of a project that are to be documented, and what is noted down
on the way. -/
def collect (t : FileTree) (root : Path) (s : Settings) (supports : Path → Bool) :
    Except Failure (List Path) × List Event :=
  if !s.fileList.isEmpty then (.ok (s.fileList.map root.join), [])
  else
    let (hidden, noted) := hiddenRules t root s
    match excludeRules root s.exclude with
    | .error e => (.error e, noted)
    | .ok exclude =>
      let found := Walk.harvest { tree := t, root, exclude, pass := .supported hidden supports }
      match includeGlobs s.includes with
      | .error e => (.error e, noted ++ found.events)
      | .ok [] => (.ok (dropRepeats (sorted Path.le found.files)), noted ++ found.events)
      | .ok globs =>
        let added := Walk.harvest { tree := t, root, exclude, pass := .included globs }
        (.ok (dropRepeats (sorted Path.le (found.files ++ added.files))),
          noted ++ found.events ++ added.events)

end Discovery
end DocScribe
