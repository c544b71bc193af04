/-
Events: what the tool notes down while it works.
-/
import DocScribe.Construct
import DocScribe.Path

namespace DocScribe

/-- Something worth noting. -/
inductive Event where
  /-- An argument without a name was left out. -/
  | unnamedArgument (token : Text)
  /-- Another construct of the kind has the line where the block would go. -/
  | crowdedLine (kind : Kind) (file : Path) (line : Nat)
  | ignoredName (kind : Kind) (file : Path) (name : Text)
  | undocumented (kind : Kind) (file : Path) (name : Text) (line : Nat)
  | declined (file : Path)
  | emptyReview (name : Text)
  | wrote (file : Path) (bytes : Nat)
  /-- A change set says nothing about a file. -/
  | noPatch (file : Path)
  | fileFailed (file : Path)
  | badIgnoreFile
  | discovered (file : Path)
  | visitedBefore (dir : Path)

/-- What an event tells about. -/
inductive EventValue where
  | text (t : Text)
  | number (n : Nat)

namespace Event

/-- Whether an event is a warning. -/
def isWarning : Event → Bool
  | unnamedArgument _ | noPatch _ | fileFailed _ | badIgnoreFile => true
  | _ => false

/-- The wording of an event. -/
def message : Event → Text
  | unnamedArgument _ => "could not extract an argument name, skipping"
  | crowdedLine kind .. => "another " ++ kind.name ++ " owns this line, skipping"
  | ignoredName kind .. => "ignored " ++ kind.name
  | undocumented kind .. => "found undocumented " ++ kind.name
  | declined _ => "file declined"
  | emptyReview _ => "empty review, skipping"
  | wrote .. => "wrote file"
  | noPatch _ => "no patch found, documenting the whole file"
  | fileFailed _ => "failed to document file"
  | badIgnoreFile => "failed to read .gitignore"
  | discovered _ => "discovered file"
  | visitedBefore _ => "directory already visited"

/-- The values of an event, by name. -/
def fields : Event → List (Text × EventValue)
  | unnamedArgument token => [("token", .text token)]
  | crowdedLine _ file line => [("file", .text file.text), ("line", .number line)]
  | ignoredName _ file name => [("file", .text file.text), ("name", .text name)]
  | undocumented _ file name line =>
    [("file", .text file.text), ("name", .text name), ("line", .number line)]
  | declined file => [("file", .text file.text)]
  | emptyReview name => [("name", .text name)]
  | wrote file bytes => [("file", .text file.text), ("bytes", .number bytes)]
  | noPatch file => [("file", .text file.text)]
  | fileFailed file => [("file", .text file.text)]
  | badIgnoreFile => []
  | discovered file => [("file", .text file.text)]
  | visitedBefore dir => [("dir", .text dir.text)]

end Event
end DocScribe
