import GraphWalk.Text.Blank

/-!
# Settings

One line of a settings file: the name of a variable, an equals sign, and the text of
its value.

## Main definitions

* `Setting` — a name and the text that its value is read from.
* `Setting.isIdle` — a line that says nothing.
* `Setting.ofLine?` — the setting that a line makes.
-/

namespace GraphWalk

open Text

/-- A setting as it is written. -/
structure Setting where
  /-- The name of the variable. -/
  name : String
  /-- The text behind the equals sign and the blanks that follow it. -/
  written : List Char
  deriving DecidableEq, Repr, Inhabited

namespace Setting

/-- A character that the name of a variable may begin with. -/
def startsName (c : Char) : Bool :=
  c.isAlpha || c == '_'

/-- A character of the name of a variable. -/
def inName (c : Char) : Bool :=
  c.isAlphanum || c == '_' || c == '.'

/-- A text without blanks at its front has nothing to say: it is empty or a comment. -/
def isIdle (cs : List Char) : Bool :=
  cs.isEmpty || cs.head? == some '#'

/-- The name at the front of a text, and what follows it and the blanks behind it. -/
def takeName? (cs : List Char) : Option (List Char × List Char) :=
  if cs.head?.any startsName then some (cs.takeWhile inName, dropBlanks (cs.dropWhile inName))
  else none

/-- The setting of a name and what follows it, which has to be an equals sign. -/
def ofName? (name : List Char) : List Char → Option Setting
  | '=' :: rest => some ⟨String.ofList name, dropBlanks rest⟩
  | _ => none

/-- The word that may stand before a setting. -/
def exportWord : List Char := "export".toList

/-- The setting that a line without blanks at its front makes.  The word `export` may stand
before it, and is itself the name when an equals sign follows. -/
def ofLine? (line : List Char) : Option Setting :=
  (takeName? line).bind fun (name, rest) =>
    (ofName? name rest).or <|
      if name = exportWord then (takeName? rest).bind fun (name, rest) => ofName? name rest
      else none

end Setting

end GraphWalk
