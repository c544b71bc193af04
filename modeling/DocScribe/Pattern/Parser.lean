/-
Reading patterns.

The text of a pattern is read from left to right, one part at a time, into a
stack of open groups. `Pattern.parse` gives the pattern or the first fault.
-/
import DocScribe.Pattern.Class

namespace DocScribe
namespace Pattern

/-- An open group: its name, the switches in force around it, the finished
alternatives, and the parts of the alternative in progress. The latest stand
first, and a part that only sets switches is `none`. -/
structure Frame where
  name : Option Text
  outer : Flags
  finished : List Pattern
  parts : List (Option Pattern)

/-- What reading a pattern carries along: the switches in force, the open
groups from the innermost out, and the names of groups used so far. -/
structure Reader where
  flags : Flags
  frame : Frame
  enclosing : List Frame
  names : List Text

/-- The state before the first part. -/
def Reader.initial : Reader := ⟨{}, ⟨none, {}, [], []⟩, [], []⟩

/-- The alternative in progress. -/
def Frame.alternative (fr : Frame) : Pattern := seqs (fr.parts.reverse.filterMap id)

/-- The pattern of a group that is complete. -/
def Frame.close (fr : Frame) : Pattern :=
  let body := alts (fr.alternative :: fr.finished).reverse
  match fr.name with
  | some name => group name body
  | none => body

/-- One more part. -/
def Reader.push (r : Reader) (p : Pattern) : Reader :=
  { r with frame := { r.frame with parts := some p :: r.frame.parts } }

/-- The part of a character under the switches in force. -/
def Reader.pushAtom (r : Reader) : Atom → Except Fault Reader
  | .char c raw =>
    if !r.flags.unicode && raw && c.toNat > 127 then .error .notText
    else .ok (r.push (.chars (r.flags.fold (.single c))))
  | .set s => .ok (r.push (.chars s))
  | .anchor a => .ok (r.push (.anchor a))

/-- The largest weight of a pattern. -/
def maxWeight : Nat := 300000

/-- The last part repeated. -/
def Reader.repeatLast (r : Reader) (greedy : Bool) (min : Nat) (max : Option Nat) : Except Fault Reader :=
  match r.frame.parts with
  | some p :: before =>
    if (max.getD min + 1) * p.weight > maxWeight then .error .tooLarge
    else
      let p := repeated (greedy != r.flags.swapGreed) p min max
      .ok { r with frame := { r.frame with parts := some p :: before } }
  | _ => .error .nothingToRepeat

/-- A question mark after a repetition makes it lazy. -/
def laziness : Text → Bool × Text
  | '?' :: t => (false, t)
  | t => (true, t)

/-- Decimal digits, with skipped blanks after each. -/
def decimalDigits (f : Flags) : Nat → Text → Text → Text × Text
  | 0, t, digits => (digits.reverse, t)
  | fuel + 1, t, digits =>
    match t with
    | [] => (digits.reverse, [])
    | c :: rest =>
      if c.isDigit then decimalDigits f fuel (f.skip rest) (c :: digits) else (digits.reverse, t)

/-- A number of times, blanks around it allowed. -/
def decimal (f : Flags) (t : Text) : Except Fault (Nat × Text) :=
  let t := t.dropWhile isBlank
  let (digits, t) := decimalDigits f t.length t []
  match Text.digitsValue? digits with
  | some n => if n < 1 <<< 32 then .ok (n, f.skip (t.dropWhile isBlank)) else .error .badCount
  | none => .error .badCount

/-- The bounds of a counted repetition, after its opening brace. -/
def counts (f : Flags) (t : Text) : Except Fault (Nat × Option Nat × Text) := do
  let (min, t) ← decimal f (f.skip t)
  match t with
  | '\x7d' :: t => .ok (min, some min, t)
  | ',' :: t =>
    match f.skip t with
    | '\x7d' :: t => .ok (min, none, t)
    | t =>
      let (max, t) ← decimal f t
      match t with
      | '\x7d' :: t => if min ≤ max then .ok (min, some max, t) else .error .badCount
      | _ => .error .badCount
  | _ => .error .badCount

/-- Whether a character can stand in the name of a group. -/
def isNameChar (first : Bool) (c : Char) : Bool :=
  c == '_' || c.isAlpha || CharSet.alphabetic.mem c ||
    (!first && (c == '.' || c == '[' || c == ']' || CharSet.number.mem c))

/-- The name of a group, up to the mark that ends it. -/
def groupName (t : Text) : Except Fault (Text × Text) :=
  let name := t.takeWhile (· != '>')
  match t.dropWhile (· != '>') with
  | _ :: rest =>
    match name with
    | [] => .error .badGroupName
    | c :: cs =>
      if isNameChar true c && cs.all (isNameChar false) then .ok (name, rest) else .error .badGroupName
  | [] => .error .badGroupName

/-- A group opened. -/
def Reader.openGroup (r : Reader) (name : Option Text) (flags : Flags) : Except Fault Reader :=
  if r.enclosing.length ≥ 249 then .error .tooDeep
  else .ok { r with flags, frame := ⟨name, r.flags, [], []⟩, enclosing := r.frame :: r.enclosing }

/-- A named group opened. -/
def Reader.openNamed (r : Reader) (t : Text) : Except Fault (Reader × Text) := do
  let (name, t) ← groupName t
  if r.names.contains name then .error (.duplicateGroupName name)
  else .ok (← { r with names := name :: r.names }.openGroup (some name) r.flags, t)

/-- Switches, up to the colon or parenthesis that ends them. `seen` are the
switches named so far and `on` tells that no hyphen has been read. -/
def switches (f : Flags) (on : Bool) (seen : Text) : Text → Except Fault (Flags × Bool × Text)
  | [] => .error .badFlags
  | ':' :: t => if seen.head? = some '-' then .error .badFlags else .ok (f, true, t)
  | ')' :: t =>
    if seen.head? = some '-' then .error .badFlags
    else if seen.isEmpty then .error .nothingToRepeat
    else .ok (f, false, t)
  | c :: t =>
    if seen.contains c then .error .badFlags
    else if c = '-' then switches f false (c :: seen) t
    else
      match f.set on c with
      | some f => switches f on (c :: seen) t
      | none => .error .badFlags

/-- What follows an opening parenthesis. -/
def Reader.parenthesis (r : Reader) (t : Text) : Except Fault (Reader × Text) :=
  match r.flags.skip t with
  | '?' :: '=' :: _ | '?' :: '!' :: _ | '?' :: '<' :: '=' :: _ | '?' :: '<' :: '!' :: _ =>
    .error .lookAround
  | '?' :: 'P' :: '<' :: t | '?' :: '<' :: t => r.openNamed t
  | '?' :: t => do
    let (flags, opens, t) ← switches r.flags true [] t
    if opens then .ok (← r.openGroup none flags, t)
    else .ok ({ r with flags, frame := { r.frame with parts := none :: r.frame.parts } }, t)
  | t => do .ok (← r.openGroup none r.flags, t)

/-- The innermost group closed. -/
def Reader.closeGroup (r : Reader) : Except Fault Reader :=
  match r.enclosing with
  | [] => .error .unopenedGroup
  | frame :: enclosing =>
    let p := r.frame.close
    .ok { r with
      flags := r.frame.outer
      frame := { frame with parts := some p :: frame.parts }
      enclosing }

/-- One part of a pattern. -/
def Reader.part (r : Reader) (c : Char) (t : Text) : Except Fault (Reader × Text) :=
  match c with
  | '(' => r.parenthesis t
  | ')' => do .ok (← r.closeGroup, t)
  | '|' =>
    let fr := r.frame
    .ok ({ r with frame := { fr with finished := fr.alternative :: fr.finished, parts := [] } }, t)
  | '[' => do
    let (s, t) ← bracketClass r.flags t
    .ok (r.push (.chars s), t)
  | '?' => do
    let (greedy, t) := laziness t
    .ok (← r.repeatLast greedy 0 (some 1), t)
  | '*' => do
    let (greedy, t) := laziness t
    .ok (← r.repeatLast greedy 0 none, t)
  | '+' => do
    let (greedy, t) := laziness t
    .ok (← r.repeatLast greedy 1 none, t)
  | '\x7b' => do
    let (min, max, t) ← counts r.flags t
    let (greedy, t) := laziness (r.flags.skip t)
    .ok (← r.repeatLast greedy min max, t)
  | '\\' => do
    let (atom, t) ← escape r.flags t
    .ok (← r.pushAtom atom, t)
  | '.' => do .ok (r.push (.chars (← r.flags.dot)), t)
  | '^' => .ok (r.push (.anchor r.flags.startMark), t)
  | '$' => .ok (r.push (.anchor r.flags.endMark), t)
  | c => do .ok (← r.pushAtom (.char c false), t)

/-- The pattern when the text is read to its end. -/
def Reader.finish (r : Reader) : Except Fault Pattern :=
  if r.enclosing.isEmpty then
    let p := r.frame.close
    if p.weight > maxWeight then .error .tooLarge else .ok p
  else .error .unclosedGroup

/-- The rest of a pattern; `fuel` bounds the number of its parts. -/
def Reader.read : Nat → Reader → Text → Except Fault Pattern
  | 0, r, _ => r.finish
  | fuel + 1, r, t =>
    match r.flags.skip t with
    | [] => r.finish
    | c :: t => do
      let (r, t) ← r.part c t
      r.read fuel t

/-- The pattern that a text writes. -/
def parse (t : Text) : Except Fault Pattern := Reader.initial.read (t.length + 1) t

end Pattern
end DocScribe
