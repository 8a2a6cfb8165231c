import GraphWalk.Marker
import GraphWalk.Text.Blank

/-!
# Merging results

A result is merged into what is known: objects member by member, lists by a policy,
anything else overwritten.  What only the known value has is kept.

## Main definitions

* `ListPolicy` — two lists at one place are joined, or the new one replaces the old.
* `ListPolicy.ofText?`, `ListPolicy.ofJson?` — the policy named by a text or a value.
* `Json.merge` — a result merged into a value.
* `Merger` — a policy, and the marker that results get first.
-/

namespace GraphWalk

/-- What becomes of two lists at the same place. -/
inductive ListPolicy
  /-- The known items followed by the new ones. -/
  | concat
  /-- The new items alone. -/
  | replace
  deriving DecidableEq, Repr, Inhabited

namespace ListPolicy

/-- The name of a policy. -/
def name : ListPolicy → String
  | .concat => "concat"
  | .replace => "replace"

/-- The policy of a name. -/
def ofName? (name : String) : Option ListPolicy :=
  if name = "concat" then some .concat else if name = "replace" then some .replace else none

@[simp] theorem ofName?_name (p : ListPolicy) : ofName? p.name = some p := by
  cases p <;> rfl

/-- A text without blanks at its ends and with its ASCII letters in lower case. -/
def normalized (text : String) : String :=
  String.ofList ((Text.trim text.toList).map Char.toLower)

/-- The policy that a text names, whatever its case and the blanks around it; otherwise the text
that was looked up. -/
def ofText? (text : String) : Except String ListPolicy :=
  match ofName? (normalized text) with
  | some policy => .ok policy
  | none => .error (normalized text)

/-- Why a text names no policy. -/
def unknownMessage (name : String) : String := "unknown list merge policy: " ++ name

/-- The policy that a value names: its exact name, or an object of that one name with no value. -/
def ofJson? : Json → Option ListPolicy
  | .string name => ofName? name
  | .object [(name, .null)] => ofName? name
  | _ => none

/-- Two lists at the same place. -/
def join (policy : ListPolicy) (known new : List Json) : List Json :=
  match policy with
  | .concat => known ++ new
  | .replace => new

@[simp] theorem join_concat (known new : List Json) : join .concat known new = known ++ new := rfl

@[simp] theorem join_replace (known new : List Json) : join .replace known new = new := rfl

end ListPolicy

namespace Json

mutual

/-- The second value merged into the first: members of objects one by one, lists by the policy,
anything else overwritten. -/
def merge (policy : ListPolicy) (known : Json) : Json → Json
  | .object new =>
    match known with
    | .object members => .object (mergeMembers policy members new)
    | _ => .object new
  | .array new =>
    match known with
    | .array items => .array (policy.join items new)
    | _ => .array new
  | scalar => scalar

/-- Members merged one after the other into those that are known. -/
def mergeMembers (policy : ListPolicy) (known : Dict Json) : List (String × Json) → Dict Json
  | [] => known
  | (name, value) :: rest =>
    let merged := match Dict.get? known name with
      | some old => old.merge policy value
      | none => value
    mergeMembers policy (Dict.insert known name merged) rest

end

@[simp] theorem merge_object_object (policy : ListPolicy) (known new : Dict Json) :
    merge policy (.object known) (.object new) = .object (mergeMembers policy known new) := by
  rw [merge]

@[simp] theorem merge_array_array (policy : ListPolicy) (known new : List Json) :
    merge policy (.array known) (.array new) = .array (policy.join known new) := by
  rw [merge]

/-- A result that is neither a list nor an object overwrites whatever is known. -/
theorem merge_of_scalar (policy : ListPolicy) (known : Json) {new : Json}
    (h : new.isContainer = false) : known.merge policy new = new := by
  cases new <;> simp_all [merge]

@[simp] theorem mergeMembers_nil (policy : ListPolicy) (known : Dict Json) :
    mergeMembers policy known [] = known := by
  rw [mergeMembers]

end Json

/-- How results are merged: the policy for lists, and the marker that the names of scalars get
first, if there is one. -/
structure Merger where
  /-- What becomes of two lists at the same place. -/
  lists : ListPolicy := .concat
  /-- The marker put in front of the names of scalars. -/
  marker : Option Char := none
  deriving DecidableEq, Repr, Inhabited

namespace Merger

/-- A result as it is stored: marked, when there is a marker. -/
def stored (m : Merger) (result : Json) : Json :=
  match m.marker with
  | some marker => result.mark marker
  | none => result

/-- A result merged into a value. -/
def apply (m : Merger) (known result : Json) : Json :=
  known.merge m.lists (m.stored result)

end Merger

end GraphWalk
