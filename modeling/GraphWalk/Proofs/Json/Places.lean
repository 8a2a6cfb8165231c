import GraphWalk.State

/-!
# Places in a value

A place is reached by hops into members and items.  It lies at or below some fields when
its names begin with them, however many lists are entered in between.  Evicting fields
empties exactly the places at or below them.

## Main definitions

* `Hop`, `Place`, `Json.place?` — hops, places, and what a value has at a place.
* `Place.Under` — a place lies at or below some fields.
* `Json.Lacks` — a value has nothing at or below some fields.
* `Json.husk` — a value without what it holds.
* `Json.EveryObject` — a property of every object that a value holds.

## Main results

* `Json.place?_prune` — what eviction leaves at a place.
* `State.lacks_evicted`, `State.lacks_evicted_of_lacks` — nothing is left at or below the
  fields, and nothing comes to where there was nothing.
* `State.place?_evicted_of_not_under` — **nothing else is touched.**
-/

namespace GraphWalk

/-- One step into a value. -/
inductive Hop
  /-- To the member of a name. -/
  | member (name : String)
  /-- To an item of a list. -/
  | item (index : Nat)
  deriving DecidableEq, Repr

/-- The hops from a value to something in it. -/
abbrev Place := List Hop

/-- A state spells the last of some fields as it is, or with the marker in front. -/
def Spelling (marker : Option Char) (field name : String) : Prop :=
  name = field ∨ marker.map (marked · field) = some name

instance (marker : Option Char) (field name : String) : Decidable (Spelling marker field name) :=
  inferInstanceAs (Decidable (_ ∨ _))

namespace Place

/-- The names along a place. -/
def names (place : Place) : List String :=
  place.filterMap fun
    | .member name => some name
    | .item _ => none

/-- A place lies at or below some fields: its names begin with them, the last one in either
spelling, whatever items are entered on the way.  Below no fields lies all but the root. -/
def Under (marker : Option Char) : List String → Place → Prop
  | _, [] => False
  | [], _ :: _ => True
  | field :: fields, .item _ :: place => Under marker (field :: fields) place
  | [field], .member name :: _ => Spelling marker field name
  | field :: next :: fields, .member name :: place =>
    name = field ∧ Under marker (next :: fields) place

variable {marker : Option Char} {field next name : String} {fields : List String} {index : Nat}
  {place : Place}

@[simp] theorem names_nil : names [] = [] := rfl

@[simp] theorem names_member : names (.member name :: place) = name :: place.names := rfl

@[simp] theorem names_item : names (.item index :: place) = place.names := rfl

@[simp] theorem not_under_nil : ¬Under marker fields [] := by
  cases fields with
  | nil => exact id
  | cons field fields => cases fields <;> exact id

@[simp] theorem under_item :
    Under marker (field :: fields) (.item index :: place)
      ↔ Under marker (field :: fields) place := by
  cases fields <;> exact Iff.rfl

@[simp] theorem under_member_last :
    Under marker [field] (.member name :: place) ↔ Spelling marker field name := Iff.rfl

@[simp] theorem under_member :
    Under marker (field :: next :: fields) (.member name :: place)
      ↔ name = field ∧ Under marker (next :: fields) place := Iff.rfl

end Place

namespace Json

/-- What a hop leads to. -/
def hop? : Json → Hop → Option Json
  | v, .member name => v.member? name
  | .array items, .item index => items[index]?
  | _, .item _ => none

/-- What a value has at a place. -/
def place? : Json → Place → Option Json
  | v, [] => some v
  | v, hop :: place => (v.hop? hop).bind fun child => child.place? place

/-- The value has nothing at or below some fields. -/
def Lacks (marker : Option Char) (fields : List String) (v : Json) : Prop :=
  ∀ place, Place.Under marker fields place → v.place? place = none

/-- A value without what it holds: an object is told by being one, a list by its length. -/
def husk : Json → Json
  | .array items => .array (items.map fun _ => .null)
  | .object _ => .empty
  | scalar => scalar

variable {marker : Option Char} {field next name : String} {fields rest : List String}
  {v : Json} {hop : Hop} {place : Place}

@[simp] theorem hop?_member (v : Json) (name : String) :
    v.hop? (.member name) = v.member? name := by
  cases v <;> rfl

@[simp] theorem hop?_item_array (items : List Json) (index : Nat) :
    (array items).hop? (.item index) = items[index]? := rfl

theorem hop?_item_of_not_array (hv : v.isArray = false) (index : Nat) :
    v.hop? (.item index) = none := by
  cases v with
  | array items => cases hv
  | _ => rfl

@[simp] theorem place?_nil (v : Json) : v.place? [] = some v := by cases v <;> rfl

@[simp] theorem place?_cons (v : Json) (hop : Hop) (place : Place) :
    v.place? (hop :: place) = (v.hop? hop).bind fun child => child.place? place := by
  cases v <;> rfl

/-! ### Where nothing lies -/

theorem lacks_null : null.Lacks marker fields := by
  intro place hunder
  cases place with
  | nil => exact absurd hunder Place.not_under_nil
  | cons hop place => cases hop <;> rfl

theorem lacks_empty : empty.Lacks marker fields := by
  intro place hunder
  cases place with
  | nil => exact absurd hunder Place.not_under_nil
  | cons hop place => cases hop <;> rfl

/-- What is no list lacks a field if no member spells it. -/
theorem lacks_of_member? (hlist : v.isArray = false)
    (h : ∀ name, Spelling marker field name → v.member? name = none) : v.Lacks marker [field] := by
  intro place hunder
  cases place with
  | nil => exact absurd hunder Place.not_under_nil
  | cons hop place =>
    rw [place?_cons]
    cases hop with
    | item index =>
      rw [hop?_item_of_not_array hlist]
      rfl
    | member name =>
      rw [hop?_member, h name (Place.under_member_last.1 hunder)]
      rfl

/-- Behind a hop there is nothing at some fields if the hop leads on towards fields at which there
is nothing. -/
theorem Lacks.behind_hop (h : v.Lacks marker fields)
    (hhop : ∀ place, Place.Under marker rest place → Place.Under marker fields (hop :: place)) :
    ((v.hop? hop).getD .null).Lacks marker rest := by
  intro place hunder
  cases hchild : v.hop? hop with
  | none => exact lacks_null place hunder
  | some child =>
    have hnone := h (hop :: place) (hhop place hunder)
    rw [place?_cons, hchild] at hnone
    exact hnone

theorem Lacks.item {items : List Json} (h : (array items).Lacks marker (field :: fields))
    (index : Nat) : (items[index]?.getD .null).Lacks marker (field :: fields) := by
  rw [← hop?_item_array]
  exact h.behind_hop fun _ => Place.under_item.2

theorem Lacks.member (h : v.Lacks marker (field :: next :: fields)) :
    ((v.member? field).getD .null).Lacks marker (next :: fields) := by
  rw [← hop?_member]
  exact h.behind_hop fun _ hunder => Place.under_member.2 ⟨rfl, hunder⟩

theorem Lacks.member?_eq_none (h : v.Lacks marker [field]) (hname : Spelling marker field name) :
    v.member? name = none := by
  have hnone := h [.member name] (Place.under_member_last.2 hname)
  rw [place?_cons, hop?_member, Option.bind_eq_none_iff] at hnone
  cases hmember : v.member? name with
  | none => rfl
  | some child =>
    have hroot := hnone child hmember
    rw [place?_nil] at hroot
    cases hroot

/-! ### Members after an eviction -/

theorem get?_eraseName (marker : Option Char) (members : Dict Json) (field name : String) :
    Dict.get? (eraseName marker members field) name
      = if Spelling marker field name then none else Dict.get? members name := by
  cases marker with
  | none => simp [eraseName, Spelling, Dict.get?_erase]
  | some m =>
    simp only [eraseName, Spelling, Dict.get?_erase, Option.map_some, Option.some.injEq]
    by_cases hmarked : marked m field = name
    · simp [hmarked]
    · simp [hmarked, Ne.symm hmarked]

theorem get?_pruneMember (marker : Option Char) (field : String) (fields : List String)
    (members : Dict Json) (name : String) :
    Dict.get? (pruneMember marker field fields members) name
      = if name = field then (Dict.get? members name).map (prune marker fields)
        else Dict.get? members name := by
  induction members with
  | nil => simp [pruneMember]
  | cons entry members ih =>
    obtain ⟨other, value⟩ := entry
    rw [pruneMember, Dict.get?_cons, Dict.get?_cons, ih]
    by_cases hname : name = other
    · subst hname
      by_cases hfield : name = field
      · simp [hfield]
      · simp [hfield]
    · simp [hname]

theorem isArray_prune (v : Json) : (v.prune marker fields).isArray = v.isArray := by
  cases v with
  | object members => rcases fields with _ | ⟨field, _ | ⟨next, fields⟩⟩ <;> simp [prune, isArray]
  | _ => simp [prune, isArray]

theorem husk_prune (v : Json) : (v.prune marker fields).husk = v.husk := by
  cases v with
  | array items => simp [prune, pruneItems_eq_map, husk, Function.comp_def]
  | object members => rcases fields with _ | ⟨field, _ | ⟨next, fields⟩⟩ <;> simp [prune, husk]
  | _ => simp [prune]

/-- Every item is entered. -/
theorem hop?_item_prune (v : Json) (index : Nat) :
    (v.prune marker fields).hop? (.item index)
      = (v.hop? (.item index)).map (prune marker fields) := by
  cases hv : v.isArray with
  | false =>
    rw [hop?_item_of_not_array hv, hop?_item_of_not_array ((isArray_prune v).trans hv),
      Option.map_none]
  | true =>
    cases v with
    | array items => simp [prune, pruneItems_eq_map]
    | _ => cases hv

/-- The last field is removed in both spellings. -/
theorem member?_prune_last (v : Json) :
    (v.prune marker [field]).member? name
      = if Spelling marker field name then none else v.member? name := by
  cases v with
  | object members => simp [prune, get?_eraseName]
  | _ => simp [prune]

/-- On the way to the last field one member is entered. -/
theorem member?_prune (v : Json) :
    (v.prune marker (field :: next :: fields)).member? name
      = if name = field then (v.member? name).map (prune marker (next :: fields))
        else v.member? name := by
  cases v with
  | object members => simp [prune, get?_pruneMember]
  | _ => simp [prune]

/-! ### Places after an eviction -/

/-- **What eviction leaves at a place.**  Nothing at or below the fields; elsewhere what was there,
which on the way to the fields is only told by itself. -/
theorem place?_prune (v : Json) (field : String) (fields : List String) (place : Place) :
    (Place.Under marker (field :: fields) place →
      (v.prune marker (field :: fields)).place? place = none) ∧
    (¬Place.Under marker (field :: fields) place →
      ((v.prune marker (field :: fields)).place? place).map husk = (v.place? place).map husk ∧
      (¬place.names <+: field :: fields →
        (v.prune marker (field :: fields)).place? place = v.place? place)) := by
  induction place generalizing v field fields with
  | nil =>
    refine ⟨fun hunder => absurd hunder Place.not_under_nil, fun _ => ⟨?_, fun hapart => ?_⟩⟩
    · simp [husk_prune]
    · exact absurd List.nil_prefix hapart
  | cons hop place ih =>
    cases hop with
    | item index =>
      -- the items are all pruned in the same way, so the place goes on in one of them
      rw [place?_cons, place?_cons, hop?_item_prune, Place.under_item, Place.names_item]
      cases v.hop? (.item index) with
      | none => simp
      | some child => simpa using ih child field fields
    | member name =>
      rw [place?_cons, place?_cons, hop?_member, hop?_member, Place.names_member]
      cases fields with
      | nil =>
        rw [Place.under_member_last, member?_prune_last]
        by_cases hname : Spelling marker field name
        · simp [hname]
        · simp [hname]
      | cons next fields =>
        rw [Place.under_member, member?_prune]
        by_cases hname : name = field
        · -- the way to the fields goes on below this member only
          subst hname
          cases v.member? name with
          | none => simp
          | some child => simpa using ih child next fields
        · simp [hname]

theorem lacks_prune (v : Json) (field : String) (fields : List String) :
    (v.prune marker (field :: fields)).Lacks marker (field :: fields) :=
  fun place hunder => (place?_prune v field fields place).1 hunder

/-! ### What holds of every object -/

/-- A property of every object that the value holds, at whatever place. -/
def EveryObject (p : Dict Json → Prop) (v : Json) : Prop :=
  ∀ place members, v.place? place = some (.object members) → p members

variable {p : Dict Json → Prop}

theorem everyObject_of_scalar (hv : v.isContainer = false) : v.EveryObject p := by
  intro place members hplace
  cases place with
  | nil =>
    rw [place?_nil] at hplace
    rw [Option.some.inj hplace] at hv
    cases hv
  | cons hop place =>
    have hhop : v.hop? hop = none := by
      cases v with
      | object members => cases hv
      | array items => cases hv
      | _ => cases hop <;> rfl
    rw [place?_cons, hhop] at hplace
    cases hplace

theorem everyObject_array_iff {items : List Json} :
    (array items).EveryObject p ↔ ∀ item ∈ items, item.EveryObject p := by
  constructor
  · intro h item hitem place members hplace
    obtain ⟨index, hindex, rfl⟩ := List.getElem_of_mem hitem
    refine h (.item index :: place) members ?_
    simpa [hindex] using hplace
  · intro h place members hplace
    cases place with
    | nil => cases hplace
    | cons hop place =>
      rw [place?_cons, Option.bind_eq_some_iff] at hplace
      obtain ⟨child, hchild, hplace⟩ := hplace
      cases hop with
      | member name => cases hchild
      | item index => exact h child (List.mem_of_getElem? hchild) place members hplace

theorem everyObject_object_iff {members : Dict Json} :
    (object members).EveryObject p
      ↔ p members ∧ ∀ name value, Dict.get? members name = some value → value.EveryObject p := by
  constructor
  · intro h
    refine ⟨h [] members (place?_nil _), fun name value hvalue place below hplace => ?_⟩
    refine h (.member name :: place) below ?_
    simpa [hvalue] using hplace
  · rintro ⟨hmembers, hvalues⟩ place below hplace
    cases place with
    | nil =>
      rw [place?_nil] at hplace
      cases hplace
      exact hmembers
    | cons hop place =>
      rw [place?_cons, Option.bind_eq_some_iff] at hplace
      obtain ⟨child, hchild, hplace⟩ := hplace
      cases hop with
      | member name => exact hvalues name child hchild place below hplace
      | item index => cases hchild

end Json

namespace State

open Json

variable {marker : Option Char} {fields : List String}

/-- After an eviction nothing is left at or below the fields. -/
theorem lacks_evicted (marker : Option Char) (fields : List String) (value : Json) :
    (evicted marker fields value).Lacks marker fields := by
  cases fields with
  | nil => exact lacks_empty
  | cons field fields => exact lacks_prune value field fields

/-- **An eviction touches nothing but what lies at or below the fields.**  On the way to the fields
every place keeps what it is by itself, and away from them it keeps its value. -/
theorem place?_evicted_of_not_under (hfields : fields ≠ []) (value : Json) {place : Place}
    (hplace : ¬Place.Under marker fields place) :
    ((evicted marker fields value).place? place).map husk = (value.place? place).map husk ∧
      (¬place.names <+: fields →
        (evicted marker fields value).place? place = value.place? place) := by
  cases fields with
  | nil => exact absurd rfl hfields
  | cons field fields => exact (place?_prune value field fields place).2 hplace

/-- An eviction brings nothing. -/
theorem lacks_evicted_of_lacks {value : Json} (h : value.Lacks marker fields) (other : Option Char)
    (names : List String) : (evicted other names value).Lacks marker fields := by
  cases names with
  | nil => exact lacks_empty
  | cons name names =>
    intro place hunder
    by_cases hgone : Place.Under other (name :: names) place
    · exact (place?_prune value name names place).1 hgone
    · have hkept := ((place?_prune value name names place).2 hgone).1
      rw [h place hunder, Option.map_none, Option.map_eq_none_iff] at hkept
      exact hkept

end State

end GraphWalk
