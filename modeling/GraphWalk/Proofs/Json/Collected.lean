import GraphWalk.Proofs.Json.Arrivals
import GraphWalk.Proofs.Json.Texts

/-!
# Values put together member by member

An object is put together by collecting its members one after the other, and so is every
object inside it.  When their names are different, it does not matter at any level in which
order they come: what comes of it has the same text.

## Main definitions

* `Json.Distinct` — in every object the names are different.

## Main results

* `Json.ordered_collected` — whatever is collected is ordered.
* `Json.agree_of_perm` — members in another order are the same members.
* `Json.text_collected_eq` — **values that agree have the same text when they have been
  collected**, in whatever order their members came.
-/

namespace GraphWalk

namespace Json

/-- In every object of the value the names are different. -/
def Distinct : Json → Prop :=
  EveryObject fun members => (Dict.keys members).Nodup

variable {v w : Json} {xs ys : Dict Json}

theorem collectedItems_eq_map (items : List Json) :
    collectedItems items = items.map collected := by
  induction items with
  | nil => rfl
  | cons item items ih => simp [collectedItems, ih]

theorem collectedMembers_eq_mapValues (members : Dict Json) :
    collectedMembers members = Dict.mapValues collected members := by
  induction members with
  | nil => rfl
  | cons entry members ih => simp [collectedMembers, Dict.mapValues, ih]

mutual

/-- Whatever is collected is ordered. -/
theorem ordered_collected : ∀ v : Json, v.collected.Ordered
  | .null => trivial
  | .bool _ => trivial
  | .number _ => trivial
  | .string _ => trivial
  | .array items => by
    rw [collected, Ordered]
    exact orderedItems_collected items
  | .object members => by
    rw [collected, Ordered]
    exact ⟨Dict.ascending_ofList _, orderedMembers_ofList (orderedMembers_collected members)⟩

theorem orderedItems_collected : ∀ items : List Json, OrderedItems (collectedItems items)
  | [] => trivial
  | item :: items => ⟨ordered_collected item, orderedItems_collected items⟩

theorem orderedMembers_collected :
    ∀ members : List (String × Json), OrderedMembers (collectedMembers members)
  | [] => trivial
  | (_, value) :: members => ⟨ordered_collected value, orderedMembers_collected members⟩

end

/-! ### The order of members -/

theorem agree_self (v : Json) : v.Agree v :=
  (agree_of_chars_append Number.closed_nil Number.closed_nil rfl).1

/-- Members in another order are the same members. -/
theorem agree_of_perm (hnodup : (Dict.keys xs).Nodup) (hperm : xs.Perm ys) :
    (object xs).Agree (.object ys) := by
  have hget := Dict.get?_eq_of_perm hnodup hperm
  refine .object (fun name => by rw [hget]) fun name x y hx hy => ?_
  rw [hget, hy] at hx
  rw [Option.some.inj hx]
  exact agree_self x

/-- Under each name there is what was collected there. -/
theorem get?_collected (hnodup : (Dict.keys xs).Nodup) (name : String) :
    Dict.get? (Dict.ofList (collectedMembers xs)) name = (Dict.get? xs name).map collected := by
  rw [collectedMembers_eq_mapValues, Dict.get?_ofList_of_nodup, Dict.get?_mapValues]
  rw [Dict.keys_mapValues]
  exact hnodup

theorem Agree.collected (h : v.Agree w) (hv : v.Distinct) (hw : w.Distinct) :
    v.collected.Agree w.collected := by
  induction h with
  | array hlength h ih =>
    rw [Distinct, everyObject_array_iff] at hv hw
    rw [Json.collected, Json.collected, collectedItems_eq_map, collectedItems_eq_map]
    refine .array (by simpa using hlength) fun index x y hx hy => ?_
    rw [List.getElem?_map, Option.map_eq_some_iff] at hx hy
    obtain ⟨x, hx, rfl⟩ := hx
    obtain ⟨y, hy, rfl⟩ := hy
    exact ih index x y hx hy (hv x (List.mem_of_getElem? hx)) (hw y (List.mem_of_getElem? hy))
  | object hnames h ih =>
    rw [Distinct, everyObject_object_iff] at hv hw
    rw [Json.collected, Json.collected]
    refine .object (fun name => ?_) fun name x y hx hy => ?_
    · rw [get?_collected hv.1, get?_collected hw.1, Option.map_eq_none_iff, Option.map_eq_none_iff]
      exact hnames name
    · rw [get?_collected hv.1, Option.map_eq_some_iff] at hx
      rw [get?_collected hw.1, Option.map_eq_some_iff] at hy
      obtain ⟨x, hx, rfl⟩ := hx
      obtain ⟨y, hy, rfl⟩ := hy
      exact ih name x y hx hy (hv.2 name x hx) (hw.2 name y hy)
  | null => exact .null
  | bool value => exact .bool value
  | number hchars => exact .number hchars
  | string value => exact .string value

/-- **Values that agree have the same text when they have been collected**, in whatever order
their members came. -/
theorem text_collected_eq (h : v.Agree w) (hv : v.Distinct) (hw : w.Distinct) :
    v.collected.text = w.collected.text :=
  (text_eq_iff (ordered_collected v) (ordered_collected w)).2 (h.collected hv hw)

end Json

end GraphWalk
