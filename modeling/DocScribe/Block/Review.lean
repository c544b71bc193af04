/-
Reviewing a block: the block is handed out between two marker lines, and what
stands between these lines is taken back.
-/
import DocScribe.Text.Lines

namespace DocScribe
namespace Review

/-- The line that opens the text handed out for review. -/
def banner : Text := "## CONFIRM: MODIFY DOCSTRING BETWEEN START AND END LINES ONLY"

/-- The line above the reviewed block. -/
def startMark : Text := "## START"

/-- The line below the reviewed block. -/
def endMark : Text := "## END"

/-- A block between the review markers. -/
def wrap (block : Text) : Text :=
  banner ++ ['\n', '\n'] ++ startMark ++ ['\n'] ++ block ++
    (if Text.endsWith block ['\n'] then [] else ['\n']) ++ endMark ++ ['\n']

/-- The lines after the first start mark and before the next end mark. -/
def between (ls : List Text) : List Text :=
  ((ls.dropWhile fun line => Text.trim line != startMark).drop 1).takeWhile
    fun line => Text.trim line != endMark

/-- The block taken back from a review: the lines between the marks, each
ended by a line feed. -/
def unwrap (reviewed : Text) : Text :=
  ((between (Text.lines reviewed)).map fun line => line ++ ['\n']).flatten

end Review
end DocScribe
