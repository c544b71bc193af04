/-
The argument section of a method's documentation.
-/
import DocScribe.Format

namespace DocScribe

/-- What was told about one argument. -/
structure ArgumentText where
  name : Text
  type : Option Text
  doc : Text
  deriving DecidableEq

/-- What was told about one construct. -/
structure DocText where
  docstring : Text
  arguments : List ArgumentText
  deriving DecidableEq

/-- How the argument section is laid out. -/
structure ArgumentStyle where
  title : Option Text := none
  underline : Bool := false
  inline : Bool := false
  lead : Text := []
  addType : Bool := false

/-- The entry of one argument: the lead, the type if asked for, then name and
description; parts that are blank are left out. -/
def ArgumentStyle.entry (style : ArgumentStyle) (a : ArgumentText) : Text :=
  let type := if style.addType then a.type.getD [] else []
  let described := a.name ++ [':', ' '] ++ Text.trim a.doc
  Text.join [' '] (([style.lead, type, described].map Text.trim).filter fun part => !part.isEmpty)

/-- The title of the section with its underline. -/
def ArgumentStyle.heading (style : ArgumentStyle) : List Text :=
  match style.title with
  | some title => title :: if style.underline then [List.replicate title.length '-'] else []
  | none => []

/-- The lines of the argument section; none without arguments. -/
def ArgumentStyle.sectionLines (style : ArgumentStyle) (arguments : List ArgumentText) : List Text :=
  if arguments.isEmpty then []
  else
    let entries := arguments.map style.entry
    style.heading ++ if style.inline then [Text.join [',', ' '] entries] else entries

end DocScribe
