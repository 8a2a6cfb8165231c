import GraphWalk.Json.Basic

/-!
# The compact text of a value

A value is written without spaces, the members of an object in their order.  Inside
a text only the quote, the backslash and the controls are escaped.

## Main definitions

* `Json.escapedChar`, `Json.quoted` — a character and a text between quotes.
* `Json.chars` — the compact text of a value, as characters.
* `Json.text` — the same as a string.
-/

namespace GraphWalk

namespace Json

/-- The two lower-case hexadecimal digits of a number below 256. -/
def hexPair (n : Nat) : List Char :=
  [Nat.digitChar (n / 16), Nat.digitChar (n % 16)]

/-- One character inside a quoted text. -/
def escapedChar (c : Char) : List Char :=
  if c = '"' then ['\\', '"']
  else if c = '\\' then ['\\', '\\']
  else if c = '\x08' then ['\\', 'b']
  else if c = '\x0c' then ['\\', 'f']
  else if c = '\n' then ['\\', 'n']
  else if c = '\r' then ['\\', 'r']
  else if c = '\t' then ['\\', 't']
  else if c.toNat < 0x20 then ['\\', 'u', '0', '0'] ++ hexPair c.toNat
  else [c]

/-- A text between quotes. -/
def quoted (s : String) : List Char :=
  '"' :: (s.toList.flatMap escapedChar ++ ['"'])

mutual

/-- The compact text of a value. -/
def chars : Json → List Char
  | .null => ['n', 'u', 'l', 'l']
  | .bool true => ['t', 'r', 'u', 'e']
  | .bool false => ['f', 'a', 'l', 's', 'e']
  | .number n => n.chars
  | .string s => quoted s
  | .array [] => ['[', ']']
  | .array (item :: items) => '[' :: (item.chars ++ itemChars items)
  | .object [] => ['\x7b', '\x7d']
  | .object ((name, value) :: members) =>
    '\x7b' :: (quoted name ++ ':' :: (value.chars ++ memberChars members))

/-- The items after the first one, each behind a comma, and the closing bracket. -/
def itemChars : List Json → List Char
  | [] => [']']
  | item :: items => ',' :: (item.chars ++ itemChars items)

/-- The members after the first one, each behind a comma, and the closing brace. -/
def memberChars : List (String × Json) → List Char
  | [] => ['\x7d']
  | (name, value) :: members =>
    ',' :: (quoted name ++ ':' :: (value.chars ++ memberChars members))

end

/-- The compact text of a value. -/
def text (v : Json) : String :=
  String.ofList v.chars

end Json

end GraphWalk
