/-
Failures: every cause for which the tool gives up on a request, with its
wording, its code and the advice that goes with it.
-/
import DocScribe.Construct

namespace DocScribe

/-- Why a file could not be read or written. -/
inductive AccessFault where
  | notFound
  | notDirectory
  | isDirectory
  | tooManyLinks
  | nameTooLong
  /-- No name holds the NUL character. -/
  | nulByte
  | notUtf8
  | denied
  | noSpace
  deriving DecidableEq

/-- The wording of an access fault. -/
def AccessFault.message : AccessFault → Text
  | notFound => "No such file or directory (os error 2)"
  | notDirectory => "Not a directory (os error 20)"
  | isDirectory => "Is a directory (os error 21)"
  | tooManyLinks => "Too many levels of symbolic links (os error 40)"
  | nameTooLong => "File name too long (os error 36)"
  | nulByte => "file name contained an unexpected NUL byte"
  | notUtf8 => "stream did not contain valid UTF-8"
  | denied => "Permission denied (os error 13)"
  | noSpace => "No space left on device (os error 28)"

/-- Why a settings file was not taken. -/
inductive SettingsFault where
  /-- It does not read as settings. -/
  | unreadable (reason : Text)
  /-- A discovery pattern is not one. -/
  | rule (table pattern reason : Text)
  deriving DecidableEq

/-- Why the tool gave up. -/
inductive Failure where
  /-- The input of the user could not be obtained. -/
  | io (message : Text)
  | fileAccess (path : Text) (fault : AccessFault)
  | settings (fault : SettingsFault)
  /-- A token that a kind of construct needs is empty. -/
  | missingToken (extension : Text) (kind : Kind) (token : Text)
  /-- The tokens of a kind of construct do not make a pattern. -/
  | badPattern (extension : Text) (kind : Kind) (reason : Text)
  | unknownFormat (path : Text)
  | badPatch (path : Text) (reason : Text)
  | template (reason : Text)
  /-- The user cancelled. -/
  | cancelled
  /-- An offset lies outside its text or inside a character. -/
  | offset
  deriving DecidableEq

namespace Failure

/-- The wording of a failure. -/
def message : Failure → Text
  | io message => message
  | fileAccess path fault => "failed to access `" ++ path ++ "`: " ++ fault.message
  | settings (.unreadable reason) => "failed to parse config file: " ++ reason
  | settings (.rule table pattern reason) =>
    "failed to parse config file: invalid [" ++ table ++ "] pattern `" ++ pattern ++ "`: " ++ reason
  | missingToken extension kind token =>
    "missing `" ++ token ++ "` token for " ++ kind.name ++ " patterns of `." ++ extension ++ "` files"
  | badPattern extension kind reason =>
    "invalid " ++ kind.name ++ " pattern for `." ++ extension ++ "` files: " ++ reason
  | unknownFormat path => "no format configured for `" ++ path ++ "`"
  | badPatch path reason => "failed to load patch file `" ++ path ++ "`: " ++ reason
  | template reason => "template rendering failed: " ++ reason
  | cancelled => "documentation cancelled"
  | offset => "offset outside the text or inside a character"

/-- The code under which a failure is reported. -/
def code : Failure → Text
  | io _ => "dyc::io_error"
  | fileAccess .. => "dyc::file_access"
  | settings _ => "dyc::config_parse"
  | missingToken .. => "dyc::missing_token"
  | badPattern .. => "dyc::invalid_pattern"
  | unknownFormat _ => "dyc::unknown_format"
  | badPatch .. => "dyc::patch_parse"
  | template _ => "dyc::template_render"
  | cancelled => "dyc::cancelled"
  | offset => "dyc::offset"

/-- The advice that goes with a failure. -/
def help : Failure → Option Text
  | settings _ => some "check that dyc.toml is valid TOML with one [[formats]] table per extension"
  | missingToken _ kind token =>
    some ("set `" ++ token ++ "` under [formats." ++ kind.name ++ "] for this extension")
  | badPattern .. =>
    some ("delimiters are used as regular expressions; escape special characters or set " ++
      "`doc_open_pattern` / `doc_close_pattern`").toList
  | unknownFormat _ => some "add a [[formats]] entry with a matching `extension` to dyc.toml"
  | badPatch .. =>
    some "patches are a JSON array of \x7b path, additions: [\x7b hunk: [start, end], patch \x7d] \x7d"
  | cancelled => some "files documented before the cancellation were kept"
  | _ => none

end Failure
end DocScribe
