/-
Splicing blocks into a text.

The point of a block is where its text goes: the start of the line that its
construct starts on, or the start of the line after the one that its
construct's signature ends on. Blocks are put in from the last to the first,
so that the offsets of the blocks still to come stay valid.
-/
import DocScribe.Block.Basic
import DocScribe.Sorting
import DocScribe.Text.Lines

namespace DocScribe

/-- A place for a block: the text before it, the text after it, and whether a
line ending must come first because the last line has none. -/
structure Point where
  head : Text
  tail : Text
  fresh : Bool
  deriving DecidableEq

/-- The byte offset of a point. -/
def Point.position (p : Point) : Nat := p.head.size

namespace Block

/-- The text up to the start of its last line, and that line. -/
def splitLastLine (t : Text) : Text × Text :=
  let last := Text.lastSegment t
  (t.take (t.length - last.length), last)

/-- The text up to its first line feed, included, and the rest; none without
a line feed. -/
def splitFirstLine? : Text → Option (Text × Text)
  | [] => none
  | c :: t =>
    if c = '\n' then some ([c], t)
    else (splitFirstLine? t).map fun halves => (c :: halves.1, halves.2)

/-- Where the text of a block goes; none when an offset of the block does not
cut the text. -/
def point? (b : Block) (t : Text) : Option Point :=
  match b.placement with
  | .before =>
    (t.cut? (min b.start t.size)).map fun halves =>
      let (head, line) := splitLastLine halves.1
      ⟨head, line ++ halves.2, false⟩
  | .after =>
    (t.cut? (min b.stop t.size)).map fun halves =>
      match splitFirstLine? halves.2 with
      | some (line, tail) => ⟨halves.1 ++ line, tail, false⟩
      | none => ⟨t, [], true⟩

/-- The text of a block with the line endings of the file it goes into. A
block that has Windows line endings already stays as it is. -/
def withEnding (newline t : Text) : Text :=
  if newline = ['\n'] || Text.holds ['\r', '\n'] t then t
  else t.flatMap fun c => if c = '\n' then newline else [c]

/-- What is put in at the point of a block. -/
def insertion (b : Block) (newline : Text) (fresh : Bool) : Text :=
  (if fresh then newline else []) ++ withEnding newline b.text

/-- A block put into a text. -/
def splice? (newline : Text) (t : Text) (b : Block) : Option Text :=
  (b.point? t).map fun p => p.head ++ b.insertion newline p.fresh ++ p.tail

/-- The order in which blocks are put in: the one further down first, then
the one that ends later, then the one with the greater text. -/
def downward (a b : Block) : Bool :=
  if a.start ≠ b.start then b.start < a.start
  else if a.stop ≠ b.stop then b.stop < a.stop
  else !Text.lt a.text b.text

end Block

/-- Every block put into a text; none when an offset does not cut the text. -/
def applyBlocks? (t : Text) (blocks : List Block) : Option Text :=
  (sorted Block.downward blocks).foldlM (Block.splice? (Text.lineEnding t)) t

end DocScribe
