import GraphWalk.Text.DefaultIgnorable
import GraphWalk.Text.GraphemeExtend
import GraphWalk.Text.Printable

/-!
# Quoted text for messages

How a text is shown inside a message: between double quotes, with every character
that would not be seen written as an escape.

## Main definitions

* `isShown c` — the character needs no escape to be seen.
* `escapedChar c` — one character as it is shown.
* `escaped s` — the whole text, quotes included.
-/

namespace GraphWalk.Text

/-- The hexadecimal digits of a number, in lower case. -/
def hexDigits (n : Nat) : List Char :=
  Nat.toDigits 16 n

/-- The halfwidth sound marks, which take a place of their own behind the letter they modify. -/
def soundMark : CodeRanges :=
  [(0xff9e, 0xff9f)]

/-- A character runs into the one before it. -/
def attaches (c : Char) : Bool :=
  graphemeExtend.contains c && !soundMark.contains c

/-- A character can be shown as itself: it is a space or printable, leaves a trace, and stands on
its own. -/
def isShown (c : Char) : Bool :=
  if c.toNat < 128 then 0x20 ≤ c.toNat && c.toNat < 0x7f
  else printable.contains c && !defaultIgnorable.contains c && !attaches c

/-- One character as it is shown between double quotes. -/
def escapedChar (c : Char) : List Char :=
  if c = '\x00' then ['\\', '0']
  else if c = '\t' then ['\\', 't']
  else if c = '\r' then ['\\', 'r']
  else if c = '\n' then ['\\', 'n']
  else if c = '\\' then ['\\', '\\']
  else if c = '"' then ['\\', '"']
  else if isShown c then [c]
  else ['\\', 'u', '\x7b'] ++ hexDigits c.toNat ++ ['\x7d']

/-- A text as messages show it: quoted, with what would not be seen escaped. -/
def escaped (s : String) : String :=
  String.ofList (['"'] ++ s.toList.flatMap escapedChar ++ ['"'])

end GraphWalk.Text
