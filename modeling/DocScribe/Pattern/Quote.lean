/-
Quoting: a text as a pattern that matches just this text.
-/
import DocScribe.Text.Basic

namespace DocScribe
namespace Pattern

/-- Whether a character has a meaning of its own in patterns. -/
def isMeta (c : Char) : Bool :=
  ['\\', '.', '+', '*', '?', '(', ')', '|', '[', ']', '\x7b', '\x7d', '^', '$', '#', '&', '-',
    '~'].contains c

/-- A text with a backslash before every character that has a meaning of its
own. -/
def quote (t : Text) : Text := t.flatMap fun c => if isMeta c then ['\\', c] else [c]

end Pattern
end DocScribe
