import GraphWalk.Json.Basic
import GraphWalk.Text.After

/-!
# The leaf marker

Without a schema a leaf is told from a branch by a marker character in front of its
name.  Results are stored with the marker in front of the names of their scalars.

## Main definitions

* `marked m name`, `unmarked? m name` — put the marker in front of a name, take it off.
* `Json.mark m v` — the value with every scalar's name marked, at every depth.
-/

namespace GraphWalk

/-- The name with the marker in front. -/
def marked (marker : Char) (name : String) : String :=
  String.ofList (marker :: name.toList)

/-- The name without the marker in front; none when it has none. -/
def unmarked? (marker : Char) (name : String) : Option String :=
  (Text.after? [marker] name.toList).map String.ofList

@[simp] theorem unmarked?_marked (marker : Char) (name : String) :
    unmarked? marker (marked marker name) = some name := by
  have h : Text.after? [marker] (marker :: name.toList) = some name.toList :=
    Text.after?_append [marker] name.toList
  simp [unmarked?, marked, h]

theorem unmarked?_eq_some_iff {marker : Char} {name bare : String} :
    unmarked? marker name = some bare ↔ name = marked marker bare := by
  constructor
  · intro h
    obtain ⟨rest, hrest, rfl⟩ := Option.map_eq_some_iff.1 h
    rw [Text.after?_eq_some_iff] at hrest
    rw [marked, String.toList_ofList, ← String.ofList_toList (s := name), hrest]
    rfl
  · rintro rfl
    exact unmarked?_marked marker bare

namespace Json

mutual

/-- The value with the marker put in front of every name that holds a scalar, at every depth.
When two names become one, the member that comes later counts. -/
def mark (marker : Char) : Json → Json
  | .object members => .object (Dict.ofList (markMembers marker members))
  | .array items => .array (markItems marker items)
  | scalar => scalar

/-- The items, each marked. -/
def markItems (marker : Char) : List Json → List Json
  | [] => []
  | item :: items => item.mark marker :: markItems marker items

/-- The members, each marked: a scalar's name gets the marker, a list or an object keeps its
name. -/
def markMembers (marker : Char) : List (String × Json) → List (String × Json)
  | [] => []
  | (name, value) :: members =>
    (if value.isContainer then name else marked marker name, value.mark marker)
      :: markMembers marker members

end

@[simp] theorem mark_of_scalar (marker : Char) {v : Json} (h : v.isContainer = false) :
    v.mark marker = v := by
  cases v <;> simp_all [mark, isContainer, isArray, isObject]

theorem markItems_eq_map (marker : Char) (items : List Json) :
    markItems marker items = items.map (mark marker) := by
  induction items with
  | nil => rfl
  | cons item items ih => simp [markItems, ih]

theorem markMembers_eq_map (marker : Char) (members : List (String × Json)) :
    markMembers marker members = members.map fun entry =>
      (if entry.2.isContainer then entry.1 else marked marker entry.1, entry.2.mark marker) := by
  induction members with
  | nil => rfl
  | cons entry members ih => simp [markMembers, ih]

end Json

end GraphWalk
