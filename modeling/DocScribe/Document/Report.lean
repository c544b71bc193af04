/-
Reports: what came of documenting a file, and of documenting many.
-/
import DocScribe.Failure
import DocScribe.Path

namespace DocScribe

/-- What one kind of construct of a file received: the names of those that
were documented, in the order of the file. -/
structure KindReport where
  kind : Kind
  documented : List Text
  deriving DecidableEq

/-- What came of documenting a file. -/
structure FileReport where
  path : Path
  before : Text
  updated : Text
  /-- The kinds that received at least one block. -/
  kinds : List KindReport
  deriving DecidableEq

/-- Whether the file is another one now. -/
def FileReport.changed (r : FileReport) : Bool := r.before ≠ r.updated

/-- How many constructs were documented. -/
def FileReport.documentedCount (r : FileReport) : Nat := (r.kinds.flatMap (·.documented)).length

/-- How the work on a file ended. -/
inductive Outcome where
  | reported (r : FileReport)
  /-- The user did not want it. -/
  | declined
  | failed (e : Failure)
  deriving DecidableEq

/-- What came of documenting some files, in their order. -/
structure RunReport where
  outcomes : List (Path × Outcome)
  deriving DecidableEq

namespace RunReport

/-- The reports on the files that were worked on to the end. -/
def files (r : RunReport) : List FileReport :=
  r.outcomes.filterMap fun o =>
    match o.2 with
    | .reported report => some report
    | _ => none

/-- The files that failed, with the reason. -/
def failures (r : RunReport) : List (Path × Failure) :=
  r.outcomes.filterMap fun o =>
    match o.2 with
    | .failed e => some (o.1, e)
    | _ => none

/-- The files that the user did not want. -/
def skipped (r : RunReport) : List Path :=
  r.outcomes.filterMap fun o =>
    match o.2 with
    | .declined => some o.1
    | _ => none

/-- Whether no file failed. -/
def isOk (r : RunReport) : Bool := r.failures.isEmpty

/-- How many constructs were documented. -/
def documentedCount (r : RunReport) : Nat := r.files.foldl (fun n report => n + report.documentedCount) 0

end RunReport
end DocScribe
