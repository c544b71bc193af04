/-
The difference of two texts, line by line.

A line ends with a line feed, a carriage return or both. Between lines that
are kept, those that go come before those that come.
-/
import DocScribe.LineDiff.Runs

namespace DocScribe

/-- What becomes of a line. -/
inductive LineChange where
  | kept (line : Text)
  | removed (line : Text)
  | added (line : Text)

namespace LineDiff

/-- The lines of a text with their endings. -/
def fullLines : Text → List Text
  | [] => []
  | '\r' :: '\n' :: t => ['\r', '\n'] :: fullLines t
  | c :: t =>
    if c = '\n' || c = '\r' then [c] :: fullLines t
    else
      match fullLines t with
      | [] => [[c]]
      | line :: lines => (c :: line) :: lines

/-- What becomes of the lines of some runs, given the lines that were dropped
and added since the last that was kept. -/
def changesOf (dropped added : List Text) : List Run → List LineChange
  | [] => dropped.map .removed ++ added.map .added
  | .keep lines :: rest =>
    dropped.map .removed ++ added.map .added ++ lines.map .kept ++ changesOf [] [] rest
  | .drop lines :: rest => changesOf (dropped ++ lines) added rest
  | .add lines :: rest => changesOf dropped (added ++ lines) rest

/-- What becomes of each line between two texts. -/
def changes (old new : Text) : List LineChange :=
  let old := fullLines old
  let new := fullLines new
  changesOf [] [] (settle (runs (old.length + new.length + 1) old new))

end LineDiff
end DocScribe
