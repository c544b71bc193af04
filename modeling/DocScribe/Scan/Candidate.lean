/-
Candidates: constructs that were found without documentation.
-/
import DocScribe.Block.Basic
import DocScribe.Path

namespace DocScribe

/-- A construct without documentation. -/
structure Candidate where
  kind : Kind
  name : Text
  /-- The signature, from the indicator to the end token. -/
  text : Text
  start : Nat
  stop : Nat
  /-- The line, counted from one, where the construct starts. -/
  line : Nat
  /-- The indentation of every line of the block. -/
  indentation : Text
  arguments : List Text
  placement : Placement
  withinScope : Bool
  file : Path
  /-- The block written for the construct, once there is one. -/
  block : Option Block
  deriving DecidableEq

end DocScribe
