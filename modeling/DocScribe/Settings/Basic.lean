/-
Settings: which files are documented, and the formats that are added to the
built-in ones.
-/
import DocScribe.Path

namespace DocScribe

/-- The settings of a project. -/
structure Settings where
  /-- The files to document; when there are any, none are looked for. -/
  fileList : List Path := []
  /-- Rules for files that are left out. -/
  exclude : List Text := []
  /-- Patterns of files that are taken in addition. -/
  includes : List Text := []
  disableGitignore : Bool := false
  formats : List Format := []

/-- The names under which the settings of a project are looked for, the first
that is there counts. -/
def Settings.fileNames : List Path := [⟨"dyc.toml"⟩, ⟨".dyc.toml"⟩, ⟨".config/dyc.toml"⟩]

/-- A format put in the place of the one with its extension, or at the end. -/
def Format.place (f : Format) : List Format → List Format
  | [] => [f]
  | g :: rest => if g.extension = f.extension then f :: rest else g :: f.place rest

/-- A format with its extension in the form in which extensions are compared. -/
def Format.normalized (f : Format) : Format := { f with extension := normalExtension f.extension }

/-- The formats in force: the built-in one, replaced or followed by those of
the settings. -/
def Settings.allFormats (s : Settings) : List Format :=
  s.formats.foldl (fun known f => f.normalized.place known) [Format.python]

end DocScribe
