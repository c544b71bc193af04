/-
White space and words.

A character is blank when it has the Unicode property White_Space. The words
of a text are its longest runs of other characters.
-/
import DocScribe.Text.Basic

namespace DocScribe

/-- The characters with the Unicode property White_Space. -/
def isBlank (c : Char) : Bool :=
  let n := c.toNat
  (9 ≤ n && n ≤ 13) || n == 0x20 || n == 0x85 || n == 0xA0 || n == 0x1680 ||
    (0x2000 ≤ n && n ≤ 0x200A) || n == 0x2028 || n == 0x2029 || n == 0x202F || n == 0x205F ||
    n == 0x3000

namespace Text

/-- Whether every character is blank. -/
def allBlank (t : Text) : Bool := t.all isBlank

/-- The text without blank characters at its start. -/
def trimStart (t : Text) : Text := t.dropWhile isBlank

/-- The text without blank characters at its end. -/
def trimEnd (t : Text) : Text := trimEndBy isBlank t

/-- The text without blank characters at its ends. -/
def trim (t : Text) : Text := trimBy isBlank t

/-- The words of a text: its longest runs of characters that are not blank. -/
def words (t : Text) : List Text := (pieces isBlank t).filter fun p => !p.isEmpty

theorem words_nil : words [] = [] := rfl

/-- The spaces and tabs that a line starts with. -/
def margin (line : Text) : Text := line.takeWhile fun c => c == ' ' || c == '\t'

end Text
end DocScribe
