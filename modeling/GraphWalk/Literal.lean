import GraphWalk.Json.Printer

/-!
# Argument literals

A value as it is written inside the arguments of a query: like JSON, but the names
of members stand without quotes and a space follows every colon and comma.

## Main definitions

* `Literal.chars` — the literal of a value.
* `Literal.argumentChars` — named values separated by commas.
* `Literal.text` — the literal as a string.
-/

namespace GraphWalk

namespace Literal

mutual

/-- The literal of a value. -/
def chars : Json → List Char
  | .array items => '[' :: (itemChars items ++ [']'])
  | .object members => '\x7b' :: (argumentChars members ++ ['\x7d'])
  | scalar => scalar.chars

/-- Items separated by commas. -/
def itemChars : List Json → List Char
  | [] => []
  | [item] => chars item
  | item :: items => chars item ++ ',' :: ' ' :: itemChars items

/-- Named values separated by commas. -/
def argumentChars : List (String × Json) → List Char
  | [] => []
  | [(name, value)] => name.toList ++ ':' :: ' ' :: chars value
  | (name, value) :: members =>
    name.toList ++ ':' :: ' ' :: (chars value ++ ',' :: ' ' :: argumentChars members)

end

/-- The literal of a value. -/
def text (v : Json) : String := String.ofList (chars v)

end Literal

end GraphWalk
