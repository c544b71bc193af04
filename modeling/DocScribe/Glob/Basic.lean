/-
Globs: patterns for paths.

A glob is matched against the bytes of a path, so that a question mark stands
for one byte. It has to match the path as a whole.
-/
import DocScribe.Pattern.Search
import DocScribe.Text.Bytes

namespace DocScribe
namespace Glob

/-- A part of a glob. -/
inductive Token where
  | literal (c : Char)
  /-- `?` -/
  | anyOne
  /-- `*` -/
  | anyRun
  /-- `**/` at the start: any directories, or none. -/
  | leadingDirs
  /-- `/**` at the end: something below. -/
  | everythingBelow
  /-- `/**/` in between: any directories, or none. -/
  | innerDirs
  | oneOf (negated : Bool) (ranges : List (Char × Char))
  | choice (branches : List (List Token))

/-- The characters whose code points are the bytes of a text. -/
def byteChars (t : Text) : Text := (Text.bytes t).map fun b => Char.ofNat b.toNat

/-- The byte ranges that a range of characters in a class stands for: the
last byte of its lower end and the first byte of its upper end make a range,
their other bytes stand for themselves. -/
def byteRanges (r : Char × Char) : List CharSet :=
  let lo := byteChars [r.1]
  let hi := byteChars [r.2]
  if r.1 = r.2 then lo.map CharSet.single
  else
    match lo.getLast?, hi.head? with
    | some a, some b => lo.dropLast.map CharSet.single ++ [.range a b] ++ hi.tail.map CharSet.single
    | _, _ => []

/-- What a wildcard can stand for: any byte, or any but a slash. -/
def wild (slashes : Bool) : Pattern := .chars (if slashes then .any else .compl (.single '/'))

def anyText : Pattern := .star true (.chars .any)

mutual

/-- The pattern of a part; `slashes` says whether wildcards stand for slashes
too. A choice without a branch that says something says nothing. -/
def Token.pattern (slashes : Bool) : Token → Pattern
  | .literal c => .literals (byteChars [c])
  | .anyOne => wild slashes
  | .anyRun => .star true (wild slashes)
  | .leadingDirs => .alt (.optional true (.literal '/')) (.seq anyText (.literal '/'))
  | .everythingBelow => .seq (.literal '/') anyText
  | .innerDirs => .alt (.literal '/') (.seqs [.literal '/', anyText, .literal '/'])
  | .oneOf negated ranges =>
    let set := CharSet.unions (ranges.flatMap byteRanges)
    .chars (if negated then .compl set else set)
  | .choice branches => .alts (branchPatterns slashes branches)

/-- The pattern of parts in a row; none when they say nothing. -/
def rowPattern? (slashes : Bool) : List Token → Option Pattern
  | [] => none
  | t :: ts =>
    let matters := match t with
      | .choice branches => !(branchPatterns slashes branches).isEmpty
      | _ => true
    match matters, rowPattern? slashes ts with
    | false, rest => rest
    | true, none => some (t.pattern slashes)
    | true, some rest => some (.seq (t.pattern slashes) rest)

/-- The patterns of the branches that say something. -/
def branchPatterns (slashes : Bool) : List (List Token) → List Pattern
  | [] => []
  | b :: bs =>
    match rowPattern? slashes b with
    | some p => p :: branchPatterns slashes bs
    | none => branchPatterns slashes bs

end

end Glob

/-- A glob that is ready to be matched. -/
structure Glob where
  pattern : Pattern

/-- The glob of some parts. A lone `**` matches every path. -/
def Glob.ofTokens (slashes : Bool) (ts : List Glob.Token) : Glob :=
  match ts with
  | [.leadingDirs] => ⟨Glob.anyText⟩
  | ts => ⟨(Glob.rowPattern? slashes ts).getD .empty⟩

/-- Whether a glob matches a path as a whole. -/
def Glob.accepts (g : Glob) (path : Text) : Bool := g.pattern.coversAll (Glob.byteChars path)

end DocScribe
