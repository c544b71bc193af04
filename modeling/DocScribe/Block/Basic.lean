/-
Documentation blocks, ready to be put into a file.
-/
import DocScribe.Construct

namespace DocScribe

/-- A rendered block, with the construct it belongs to. -/
structure Block where
  text : Text
  /-- Where the construct starts. -/
  start : Nat
  /-- Where the construct's signature ends. -/
  stop : Nat
  placement : Placement
  withinScope : Bool
  deriving DecidableEq

end DocScribe
