/-
Finding and reading the settings file of a project.
-/
import DocScribe.FileTree.Basic
import DocScribe.Settings.Decode

namespace DocScribe
namespace Settings

/-- The settings file of a project, given the directory of the project. -/
def locate? (t : FileTree) (root : Path) : Option Path :=
  (fileNames.map root.join).find? t.isFile

/-- The settings of a project; none without a settings file. -/
def load (t : FileTree) (root : Path) : Except Failure (Option Settings) :=
  match locate? t root with
  | none => .ok none
  | some file =>
    match t.read file with
    | .ok text => (parse text).map some
    | .error fault => .error (.fileAccess file.text fault)

end Settings
end DocScribe
