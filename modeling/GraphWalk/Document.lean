import GraphWalk.Literal
import GraphWalk.Selection

/-!
# Query documents

A selection becomes a query document in two steps: the fields that it selects, and
their text.

## Main definitions

* `Field` — a field of a document with its arguments and its own selection.
* `Field.ofMembers` — the fields that the members of a selection stand for.
* `Field.chars` — the text of a field.
* `Document.text` — the document of a selection.
-/

namespace GraphWalk

/-- A field of a document. -/
inductive Field
  /-- A name, the arguments if the field has any, and the fields selected below it if the field
  has a selection of its own. -/
  | mk (name : String) (args : Option (Dict Json)) (selected : Option (List Field))
  deriving Inhabited, Repr

namespace Field

mutual

/-- The fields that the members of a selection stand for: `true` asks for the field itself, an
object for what lies below it, and anything else for nothing. -/
def ofMembers : List (String × Json) → List Field
  | [] => []
  | (name, value) :: members =>
    match value with
    | .bool true => mk name none none :: ofMembers members
    | .object child => ofChild name child :: ofMembers members
    | _ => ofMembers members
termination_by members => (sizeOf members, 0)

/-- The field that holds an object: arguments beside a selection when the object has arguments,
otherwise a selection. -/
def ofChild (name : String) (child : List (String × Json)) : Field :=
  match Dict.get? child Selection.argumentsName with
  | some (.object args) =>
    match h : Dict.get? child Selection.selectionName with
    | some (.object (first :: rest)) =>
      have : sizeOf (first :: rest) < sizeOf child := by
        have := Json.sizeOf_lt_of_get?_eq_some h
        simp only [Json.object.sizeOf_spec] at this
        omega
      mk name (some args) (some (ofMembers (first :: rest)))
    | _ => mk name (some args) none
  | _ => mk name none (some (ofMembers child))
termination_by (sizeOf child, 1)

end

mutual

/-- The text of a field: its name, its arguments between parentheses, its selection. -/
def chars : Field → List Char
  | .mk name args selected =>
    name.toList ++ argumentsChars args ++
      match selected with
      | none => []
      | some fields => ' ' :: '\x7b' :: selectedChars fields

/-- The text of the fields of a selection, its opening brace aside. -/
def selectedChars : List Field → List Char
  | [] => [' ', '\x7d']
  | field :: fields => ' ' :: (field.chars ++ selectedChars fields)

/-- The arguments between parentheses. -/
def argumentsChars : Option (Dict Json) → List Char
  | none => []
  | some args => '(' :: (Literal.argumentChars args ++ [')'])

end

end Field

namespace Document

/-- The fields that a selection stands for; none when it is no object. -/
def fields? : Json → Option (List Field)
  | .object members => some (Field.ofMembers members)
  | _ => none

/-- The text of the document of a selection. -/
def chars (selection : Json) : List Char :=
  ['q', 'u', 'e', 'r', 'y'] ++
    match fields? selection with
    | none => []
    | some fields => ' ' :: '\x7b' :: Field.selectedChars fields

/-- The text of the document of a selection. -/
def text (selection : Json) : String := String.ofList (chars selection)

end Document

end GraphWalk
