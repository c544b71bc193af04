/-
Ignore rules: lines that say which paths below a directory are left out.

A line with a slash before its end is about the path from the directory on,
any other line is about a name at any depth. An exclamation mark takes paths
back in, a slash at the end is for directories only, and of the rules that
match a path the last one counts.
-/
import DocScribe.FileTree.Basic
import DocScribe.Glob.Parser
import DocScribe.Text.Lines

namespace DocScribe

/-- One rule. -/
structure IgnoreRule where
  glob : Glob
  /-- The rule takes paths back in. -/
  keeps : Bool
  onlyDirectories : Bool

/-- Whether a rule is about a path. -/
def IgnoreRule.matches (r : IgnoreRule) (path : Text) (isDirectory : Bool) : Bool :=
  (!r.onlyDirectories || isDirectory) && r.glob.accepts path

/-- Rules for the paths below a directory. -/
structure IgnoreRules where
  /-- The directory as it is written, without a dot and slash before it. -/
  base : Text
  rules : List IgnoreRule

namespace IgnoreRules

/-- A path without a leading part, if it has that part. -/
def without (lead path : Text) : Text := (Text.dropLead? lead path).getD path

/-- No rules. -/
def empty (root : Path) : IgnoreRules := ⟨without ['.', '/'] root.text, []⟩

/-- The mark at the start of a rule taken off: whether the rule takes paths
back in, whether it is tied to the directory, and what is left. -/
def readMark (line : Text) : Bool × Bool × Text :=
  match line with
  | '\\' :: '!' :: rest => (false, false, '!' :: rest)
  | '\\' :: '#' :: rest => (false, false, '#' :: rest)
  | '!' :: '/' :: rest => (true, true, rest)
  | '!' :: rest => (true, false, rest)
  | '/' :: rest => (false, true, rest)
  | rest => (false, false, rest)

/-- The slash at the end of a rule taken off: whether there was one, and what
is left. -/
def readEnd (body : Text) : Bool × Text :=
  match body.reverse with
  | '/' :: '\\' :: rest => (true, rest.reverse)
  | '/' :: rest => (true, rest.reverse)
  | _ => (false, body)

/-- The glob of a rule: a body without a slash is about names at any depth,
and two stars at the end are about what lies below only. -/
def globText (tied : Bool) (body : Text) : Text :=
  let floating := !tied && !body.contains '/' && body ≠ ['*', '*']
  let t := if floating then "**/".toList ++ body else body
  if Text.endsWith t "/**" then t ++ "/*".toList else t

/-- How the globs of rules are read. -/
def options : Glob.Options := { slashes := false, openClasses := true }

/-- The rule on a line; none when the line is a comment or empty. -/
def readLine (line : Text) : Except Glob.Fault (Option IgnoreRule) :=
  if line.head? = some '#' then .ok none
  else
    let line := if Text.endsWith line "\\ " then line else Text.trimEnd line
    if line.isEmpty then .ok none
    else
      let (keeps, tied, body) := readMark line
      let (onlyDirectories, body) := readEnd body
      (Glob.parse options (globText tied body)).map fun glob => some { glob, keeps, onlyDirectories }

/-- The rules with that of one more line. -/
def addLine (r : IgnoreRules) (line : Text) : Except Glob.Fault IgnoreRules :=
  (readLine line).map fun rule => { r with rules := r.rules ++ rule.toList }

/-- A path as the rules see it: from their directory on. -/
def fromBase (r : IgnoreRules) (path : Text) : Text :=
  let path := without ['.', '/'] path
  if (Path.mk r.base).same ⟨['.']⟩ || !path.contains '/' then path
  else
    match Text.dropLead? r.base path with
    | some below => without ['/'] below
    | none => path

/-- Whether the rules leave a path out: the last rule that is about it says
so. -/
def leavesOut (r : IgnoreRules) (path : Path) (isDirectory : Bool) : Bool :=
  match r.rules.reverse.find? fun rule => rule.matches (r.fromBase path.text) isDirectory with
  | some rule => !rule.keeps
  | none => false

/-- The lines of an ignore file up to the first that is not UTF-8, and whether
there was no such line. -/
def linesOf : Content → List Text × Bool
  | .text t => (Text.lines t, true)
  | .bytes b =>
    let read := (Text.byteLines b).map Text.ofBytes?
    let lines := (read.takeWhile Option.isSome).filterMap id
    (lines.map Text.dropReturn, false)

/-- The mark that a file can start with. -/
def byteOrderMark : Char := Char.ofNat 0xFEFF

/-- The rules of the lines of a file, and whether every line was one. -/
def ofLines (root : Path) (lines : List Text) : IgnoreRules × Bool :=
  lines.foldl (fun (r, fine) line =>
    match r.addLine line with
    | .ok r => (r, fine)
    | .error _ => (r, false)) (empty root, true)

/-- The first line without the marks before it. -/
def dropMarks : List Text → List Text
  | [] => []
  | line :: lines => line.dropWhile (· == byteOrderMark) :: lines

/-- The rules of the ignore file of a directory, and whether all of it could be
read. Without the file there are no rules. -/
def load (t : FileTree) (root : Path) : IgnoreRules × Bool :=
  let file := root.join ⟨".gitignore"⟩
  if t.isThere file then
    match t.content file with
    | .ok content =>
      let (lines, complete) := linesOf content
      let (rules, fine) := ofLines root (dropMarks lines)
      (rules, fine && complete)
    | .error _ => (empty root, false)
  else (empty root, true)

end IgnoreRules
end DocScribe
