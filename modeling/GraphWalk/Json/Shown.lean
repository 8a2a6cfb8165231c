import GraphWalk.Json.Printer
import GraphWalk.Text.Escaped

/-!
# Values as messages show them

For people who look into a running program a value is shown with its kind.

## Main definitions

* `Json.shown` — a value with its kind.
-/

namespace GraphWalk

namespace Json

mutual

/-- A value with its kind. -/
def shown : Json → String
  | .null => "Null"
  | .bool true => "Bool(true)"
  | .bool false => "Bool(false)"
  | .number n => "Number(" ++ String.ofList n.chars ++ ")"
  | .string s => "String(" ++ Text.escaped s ++ ")"
  | .array items => "Array [" ++ ", ".intercalate (shownItems items) ++ "]"
  | .object members => "Object \x7b" ++ ", ".intercalate (shownMembers members) ++ "\x7d"

/-- The items of a list. -/
def shownItems : List Json → List String
  | [] => []
  | item :: items => item.shown :: shownItems items

/-- The members of an object. -/
def shownMembers : List (String × Json) → List String
  | [] => []
  | (name, value) :: members =>
    (Text.escaped name ++ ": " ++ value.shown) :: shownMembers members

end

end Json

end GraphWalk
