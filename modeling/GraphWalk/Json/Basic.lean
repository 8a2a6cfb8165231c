import GraphWalk.Dict
import GraphWalk.Json.Number

/-!
# JSON values

The values that states, arguments, selections and results are made of.  The
members of an object are kept in ascending order of their names; that order is a
separate predicate, since it speaks of every level of a value.

## Main definitions

* `Json` — the values.
* `Json.Ordered` — in every object the names ascend.
* `Json.same` — equality of values, numbers compared by `Number.same`.
* `Json.member?` — the value of a member of an object.
* `Json.at?` — the value reached by following names through objects only.
* `Json.collected` — the value with the members of every object collected.
-/

namespace GraphWalk

/-- A JSON value. -/
inductive Json
  /-- The value `null`. -/
  | null
  /-- A truth value. -/
  | bool (value : Bool)
  /-- A number. -/
  | number (value : Number)
  /-- A text. -/
  | string (value : String)
  /-- A list of values. -/
  | array (items : List Json)
  /-- Named members, in ascending order of their names. -/
  | object (members : List (String × Json))
  deriving Inhabited, Repr

namespace Json

/-- The empty object. -/
def empty : Json := .object []

/-- The value is `null`. -/
def isNull : Json → Bool
  | .null => true
  | _ => false

/-- The value is a list. -/
def isArray : Json → Bool
  | .array _ => true
  | _ => false

/-- The value is an object. -/
def isObject : Json → Bool
  | .object _ => true
  | _ => false

/-- The value is a list or an object. -/
def isContainer (v : Json) : Bool :=
  v.isArray || v.isObject

@[simp] theorem isContainer_array (items : List Json) : (array items).isContainer = true := rfl

@[simp] theorem isContainer_object (members : Dict Json) :
    (object members).isContainer = true := rfl

@[simp] theorem isContainer_null : null.isContainer = false := rfl

@[simp] theorem isContainer_bool (b : Bool) : (bool b).isContainer = false := rfl

@[simp] theorem isContainer_number (n : Number) : (number n).isContainer = false := rfl

@[simp] theorem isContainer_string (s : String) : (string s).isContainer = false := rfl

/-- The members of an object; none for any other value. -/
def members? : Json → Option (Dict Json)
  | .object members => some members
  | _ => none

/-- The value of a member of an object; none for any other value. -/
def member? : Json → String → Option Json
  | .object members, name => Dict.get? members name
  | _, _ => none

@[simp] theorem member?_object (members : Dict Json) (name : String) :
    (object members).member? name = Dict.get? members name := rfl

@[simp] theorem member?_array (items : List Json) (name : String) :
    (array items).member? name = none := rfl

@[simp] theorem member?_null (name : String) : null.member? name = none := rfl

@[simp] theorem member?_bool (b : Bool) (name : String) : (bool b).member? name = none := rfl

@[simp] theorem member?_number (n : Number) (name : String) :
    (number n).member? name = none := rfl

@[simp] theorem member?_string (s : String) (name : String) :
    (string s).member? name = none := rfl

/-- The value reached by following names one after the other, through objects only. -/
def at? : Json → List String → Option Json
  | v, [] => some v
  | v, name :: names => (v.member? name).bind fun child => child.at? names

@[simp] theorem at?_nil (v : Json) : v.at? [] = some v := by cases v <;> rfl

@[simp] theorem at?_cons (v : Json) (name : String) (names : List String) :
    v.at? (name :: names) = (v.member? name).bind fun child => child.at? names := by
  cases v <;> rfl

theorem at?_append (v : Json) (names more : List String) :
    v.at? (names ++ more) = (v.at? names).bind fun child => child.at? more := by
  induction names generalizing v with
  | nil => simp
  | cons name names ih =>
    simp only [List.cons_append, at?_cons, Option.bind_assoc]
    exact congrArg _ (funext fun child => ih child)

/-- The value of a member is smaller than all members. -/
theorem sizeOf_lt_of_mem {members : List (String × Json)} {entry : String × Json}
    (h : entry ∈ members) : sizeOf entry.2 < sizeOf members := by
  have hmem := List.sizeOf_lt_of_mem h
  have hentry : sizeOf entry = 1 + sizeOf entry.1 + sizeOf entry.2 := rfl
  omega

/-- A member is smaller than all members. -/
theorem sizeOf_lt_of_get?_eq_some {members : List (String × Json)} {name : String} {v : Json}
    (h : Dict.get? members name = some v) : sizeOf v < sizeOf members :=
  sizeOf_lt_of_mem (Dict.mem_of_get?_eq_some h)

/-! ### Order and equality at every level -/

mutual

/-- The value with the members of every object collected one after the other. -/
def collected : Json → Json
  | .object members => .object (Dict.ofList (collectedMembers members))
  | .array items => .array (collectedItems items)
  | scalar => scalar

/-- The items, each with its members collected. -/
def collectedItems : List Json → List Json
  | [] => []
  | item :: items => item.collected :: collectedItems items

/-- The members, the value of each with its own members collected. -/
def collectedMembers : List (String × Json) → List (String × Json)
  | [] => []
  | (name, value) :: members => (name, value.collected) :: collectedMembers members

end

mutual

/-- In every object of the value the names are in strictly ascending order. -/
def Ordered : Json → Prop
  | .array items => OrderedItems items
  | .object members => Dict.Ascending members ∧ OrderedMembers members
  | _ => True

/-- Every item is ordered. -/
def OrderedItems : List Json → Prop
  | [] => True
  | item :: items => item.Ordered ∧ OrderedItems items

/-- The value of every member is ordered. -/
def OrderedMembers : List (String × Json) → Prop
  | [] => True
  | (_, value) :: members => value.Ordered ∧ OrderedMembers members

end

mutual

/-- Equality of values: numbers are compared as numbers, everything else as it stands. -/
def same : Json → Json → Bool
  | .null, .null => true
  | .bool a, .bool b => a == b
  | .number m, .number n => m.same n
  | .string s, .string t => s == t
  | .array xs, .array ys => sameItems xs ys
  | .object xs, .object ys => sameMembers xs ys
  | _, _ => false

/-- Equal lengths and equal items. -/
def sameItems : List Json → List Json → Bool
  | [], [] => true
  | x :: xs, y :: ys => x.same y && sameItems xs ys
  | _, _ => false

/-- The same names in the same order, with equal values. -/
def sameMembers : List (String × Json) → List (String × Json) → Bool
  | [], [] => true
  | (k, x) :: xs, (l, y) :: ys => k == l && x.same y && sameMembers xs ys
  | _, _ => false

end

mutual

@[simp] theorem same_self : ∀ v : Json, v.same v = true
  | .null => by simp [same]
  | .bool _ => by simp [same]
  | .number _ => by simp [same]
  | .string _ => by simp [same]
  | .array items => by simp [same, sameItems_self items]
  | .object members => by simp [same, sameMembers_self members]

@[simp] theorem sameItems_self : ∀ items : List Json, sameItems items items = true
  | [] => by simp [sameItems]
  | item :: items => by simp [sameItems, same_self item, sameItems_self items]

@[simp] theorem sameMembers_self :
    ∀ members : List (String × Json), sameMembers members members = true
  | [] => by simp [sameMembers]
  | (_, value) :: members => by simp [sameMembers, same_self value, sameMembers_self members]

end

end Json

end GraphWalk
