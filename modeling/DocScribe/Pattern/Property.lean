/-
The names under which patterns speak of classes of characters: categories,
scripts and properties of Unicode, and the named classes of ASCII.
-/
import DocScribe.Pattern.CharSet
import DocScribe.Unicode.Category
import DocScribe.Unicode.Script

namespace DocScribe
namespace CharSet

open Unicode

/-- A set from tables. -/
def tables (ts : List Ranges) : CharSet := unions (ts.map table)

def cased : CharSet := tables [uppercaseLetter, lowercaseLetter, titlecaseLetter]

def letter : CharSet := union cased (tables [modifierLetter, otherLetter])

def mark : CharSet := tables [nonspacingMark, spacingMark, enclosingMark]

def number : CharSet := tables [decimalNumber, letterNumber, otherNumber]

def punctuation : CharSet :=
  tables [connectorPunctuation, dashPunctuation, openPunctuation, closePunctuation,
    initialPunctuation, finalPunctuation, otherPunctuation]

def symbol : CharSet := tables [mathSymbol, currencySymbol, modifierSymbol, otherSymbol]

def separator : CharSet := tables [spaceSeparator, lineSeparator, paragraphSeparator]

/-- The characters that have been given a meaning or a private use. -/
def assigned : CharSet :=
  unions [letter, mark, number, punctuation, symbol, separator,
    tables [control, format, privateUse]]

def alphabetic : CharSet := union letter (tables [letterNumber, otherAlphabetic])

def lowercase : CharSet := tables [lowercaseLetter, otherLowercase]

def uppercase : CharSet := tables [uppercaseLetter, otherUppercase]

/-- The decimal digits of all scripts. -/
def digit : CharSet := table decimalNumber

/-- The characters of words: letters, marks, digits, connectors. -/
def word : CharSet := unions [alphabetic, mark, digit, table connectorPunctuation, table joinControl]

/-- The digits of ASCII. -/
def asciiDigit : CharSet := range '0' '9'

/-- The letters of ASCII. -/
def asciiLetter : CharSet := union (range 'A' 'Z') (range 'a' 'z')

/-- The letters and digits of ASCII, and the underscore. -/
def asciiWord : CharSet := unions [asciiLetter, asciiDigit, single '_']

/-- The white space of ASCII. -/
def asciiBlank : CharSet := union (range '\t' '\r') (single ' ')

def idStart : CharSet :=
  diff (union letter (tables [letterNumber, otherIdStart])) (table patternChars)

def idContinue : CharSet :=
  diff (unions [idStart, mark, digit, table connectorPunctuation, table otherIdContinue])
    (table patternChars)

/-- The general category of a name in small letters. -/
def category? (name : String) : Option CharSet :=
  match name with
  | "l" | "letter" => some letter
  | "lc" | "casedletter" => some cased
  | "lu" | "uppercaseletter" => some (table uppercaseLetter)
  | "ll" | "lowercaseletter" => some (table lowercaseLetter)
  | "lt" | "titlecaseletter" => some (table titlecaseLetter)
  | "lm" | "modifierletter" => some (table modifierLetter)
  | "lo" | "otherletter" => some (table otherLetter)
  | "m" | "mark" | "combiningmark" => some mark
  | "mn" | "nonspacingmark" => some (table nonspacingMark)
  | "mc" | "spacingmark" => some (table spacingMark)
  | "me" | "enclosingmark" => some (table enclosingMark)
  | "n" | "number" => some number
  | "nd" | "decimalnumber" | "digit" => some digit
  | "nl" | "letternumber" => some (table letterNumber)
  | "no" | "othernumber" => some (table otherNumber)
  | "p" | "punctuation" | "punct" => some punctuation
  | "pc" | "connectorpunctuation" => some (table connectorPunctuation)
  | "pd" | "dashpunctuation" => some (table dashPunctuation)
  | "ps" | "openpunctuation" => some (table openPunctuation)
  | "pe" | "closepunctuation" => some (table closePunctuation)
  | "pi" | "initialpunctuation" => some (table initialPunctuation)
  | "pf" | "finalpunctuation" => some (table finalPunctuation)
  | "po" | "otherpunctuation" => some (table otherPunctuation)
  | "s" | "symbol" => some symbol
  | "sm" | "mathsymbol" => some (table mathSymbol)
  | "sc" | "currencysymbol" => some (table currencySymbol)
  | "sk" | "modifiersymbol" => some (table modifierSymbol)
  | "so" | "othersymbol" => some (table otherSymbol)
  | "z" | "separator" => some separator
  | "zs" | "spaceseparator" => some (table spaceSeparator)
  | "zl" | "lineseparator" => some (table lineSeparator)
  | "zp" | "paragraphseparator" => some (table paragraphSeparator)
  | "c" | "other" =>
    some (union (tables [control, format, privateUse]) (compl assigned))
  | "cc" | "control" | "cntrl" => some (table control)
  | "cf" | "format" => some (table format)
  | "co" | "privateuse" => some (table privateUse)
  | "cs" | "surrogate" => some nothing
  | "cn" | "unassigned" => some (compl assigned)
  | "any" => some any
  | "assigned" => some assigned
  | "ascii" => some ascii
  | _ => none

/-- The two-valued property of a name in small letters. -/
def binaryProperty? (name : String) : Option CharSet :=
  match name with
  | "alphabetic" | "alpha" => some alphabetic
  | "lowercase" | "lower" => some lowercase
  | "uppercase" | "upper" => some uppercase
  | "cased" => some (unions [uppercase, lowercase, table titlecaseLetter])
  | "whitespace" | "wspace" | "space" => some blank
  | "asciihexdigit" | "ahex" =>
    some (unions [asciiDigit, range 'a' 'f', range 'A' 'F'])
  | "hexdigit" | "hex" => some (table hexDigit)
  | "idstart" | "ids" | "xidstart" | "xids" => some idStart
  | "idcontinue" | "idc" | "xidcontinue" | "xidc" => some idContinue
  | "ideographic" | "ideo" => some (table ideographic)
  | "emoji" => some (table emoji)
  | "extendedpictographic" | "extpict" => some (table pictographic)
  | "math" => some (table math)
  | "dash" => some (table dash)
  | "joincontrol" | "joinc" => some (table joinControl)
  | "patternsyntax" | "patsyn" => some (table patternChars)
  | _ => none

/-- The script of a name in small letters. -/
def script? (name : String) : Option CharSet :=
  (scripts.find? fun entry => entry.1.contains name).map fun entry => table entry.2

/-- The form in which names of properties are compared: small letters,
without separators and without a leading `is`. -/
def propertyName (t : Text) : String :=
  let bare := match t with
    | 'i' :: 's' :: rest | 'I' :: 's' :: rest | 'i' :: 'S' :: rest | 'I' :: 'S' :: rest => rest
    | _ => t
  let small := (bare.filter fun c => c.toNat < 128 && c != ' ' && c != '_' && c != '-').map Char.toLower
  if bare.length < t.length && small = ['c'] then "isc" else String.ofList small

/-- The set that a name of a category, script or property stands for. -/
def named? (t : Text) : Option CharSet :=
  let name := propertyName t
  let property := if ["cf", "sc", "lc"].contains name then none else binaryProperty? name
  property <|> category? name <|> script? name

/-- The set that the value of a property stands for, as in `script=greek`. -/
def valued? (property value : Text) : Option CharSet :=
  match propertyName property with
  | "gc" | "generalcategory" => category? (propertyName value)
  | "sc" | "script" | "scx" | "scriptextensions" => script? (propertyName value)
  | _ => none

/-- The classes that patterns write as `[:name:]`. -/
def posix? (name : Text) : Option CharSet :=
  match String.ofList name with
  | "alnum" => some (union asciiLetter asciiDigit)
  | "alpha" => some asciiLetter
  | "ascii" => some ascii
  | "blank" => some (union (single '\t') (single ' '))
  | "cntrl" => some (union (range (Char.ofNat 0) (Char.ofNat 31)) (single (Char.ofNat 127)))
  | "digit" => some asciiDigit
  | "graph" => some (range '!' '~')
  | "lower" => some (range 'a' 'z')
  | "print" => some (range ' ' '~')
  | "punct" => some (unions [range '!' '/', range ':' '@', range '[' '\x60', range '\x7b' '~'])
  | "space" => some asciiBlank
  | "upper" => some (range 'A' 'Z')
  | "word" => some asciiWord
  | "xdigit" => some (unions [asciiDigit, range 'a' 'f', range 'A' 'F'])
  | _ => none

end CharSet
end DocScribe
