import GraphWalk.Proofs.Json.Layers
import GraphWalk.Proofs.Json.Places

/-!
# What a result brings

A result that has nothing at or below some fields leaves everything there as it was, or
takes it away with a list or a scalar further up; a result that has something there
brings it.  So after a result there is something at the fields exactly when there was
before and was not taken away, or when the result has something there itself.

## Main results

* `Json.exists_items_before` — what a merged list is.
* `Json.place?_merge_of_lacks` — a result that has nothing there brings nothing.
* `Json.exists_place?_merge` — a result that has something there brings something.
* `State.lacks_absorb`, `State.not_lacks_absorb` — the same for results that are stored.
-/

namespace GraphWalk

namespace Json

variable {policy : ListPolicy} {marker : Option Char} {field : String} {fields : List String}
  {known new v w : Json} {place : Place}

/-- All items lie at or below the same fields. -/
theorem under_other_item {index : Nat} (other : Nat)
    (h : Place.Under marker fields (.item index :: place)) :
    Place.Under marker fields (.item other :: place) := by
  cases fields with
  | nil => exact trivial
  | cons field fields => exact Place.under_item.2 (Place.under_item.1 h)

/-- Below a member there is nothing but at the rest of the fields. -/
theorem under_member_cases {name : String}
    (h : Place.Under marker fields (.member name :: place)) :
    Place.Under marker fields [.member name] ∨
      ∃ next rest, fields = name :: next :: rest ∧ Place.Under marker (next :: rest) place := by
  cases fields with
  | nil => exact .inl trivial
  | cons field fields =>
    cases fields with
    | nil => exact .inl h
    | cons next rest =>
      obtain ⟨rfl, hunder⟩ := Place.under_member.1 h
      exact .inr ⟨next, rest, rfl, hunder⟩

/-! ### Items of a merged value -/

/-- A merged value has items only if the result has. -/
theorem hop?_item_merge_of_not_array (hnew : new.isArray = false) (known : Json) (index : Nat) :
    (known.merge policy new).hop? (.item index) = none := by
  refine hop?_item_of_not_array ?_ index
  cases new with
  | array items => cases hnew
  | object members => cases known <;> simp [merge, isArray]
  | _ => rw [merge_of_scalar policy known rfl]; rfl

theorem merge_array_of_not_array (hknown : known.isArray = false) (items : List Json) :
    known.merge policy (.array items) = .array items := by
  cases known with
  | array old => cases hknown
  | _ => simp [merge]

theorem exists_items_of_isArray (hv : v.isArray = true) : ∃ items, v = .array items := by
  cases v with
  | array items => exact ⟨items, rfl⟩
  | _ => cases hv

/-- A merged list is the result's, behind items that were known, if any stay. -/
theorem exists_items_before (policy : ListPolicy) (known : Json) (items : List Json) :
    ∃ old, known.merge policy (.array items) = .array (old ++ items) ∧
      ∀ index < old.length, known.hop? (.item index) = old[index]? := by
  cases hknown : known.isArray with
  | false =>
    rw [merge_array_of_not_array hknown]
    exact ⟨[], rfl, nofun⟩
  | true =>
    obtain ⟨old, rfl⟩ := exists_items_of_isArray hknown
    rw [merge_array_array]
    cases policy with
    | replace => exact ⟨[], rfl, nofun⟩
    | concat => exact ⟨old, rfl, fun _ _ => rfl⟩

/-- An item of merged lists is an item of either. -/
theorem hop?_item_merge (policy : ListPolicy) (known : Json) (items : List Json) (index : Nat) :
    (known.merge policy (.array items)).hop? (.item index) = known.hop? (.item index) ∨
      ∃ other, (known.merge policy (.array items)).hop? (.item index)
        = (array items).hop? (.item other) := by
  obtain ⟨old, hmerged, hold⟩ := exists_items_before policy known items
  rw [hmerged, hop?_item_array]
  by_cases hindex : index < old.length
  · rw [hold index hindex]
    exact .inl (List.getElem?_append_left hindex)
  · exact .inr ⟨index - old.length, List.getElem?_append_right (Nat.le_of_not_lt hindex)⟩

/-- Every item of the result is an item of the merged lists. -/
theorem exists_hop?_item_merge (policy : ListPolicy) (known : Json) (items : List Json)
    (index : Nat) :
    ∃ other, (known.merge policy (.array items)).hop? (.item other)
      = (array items).hop? (.item index) := by
  obtain ⟨old, hmerged, -⟩ := exists_items_before policy known items
  refine ⟨old.length + index, ?_⟩
  rw [hmerged, hop?_item_array, hop?_item_array,
    List.getElem?_append_right (Nat.le_add_right _ _), Nat.add_sub_cancel_left]

/-! ### Places of a merged value -/

/-- **A result that has nothing there brings nothing.**  At or below the fields there is after it
what was known there, or nothing. -/
theorem place?_merge_of_lacks (policy : ListPolicy) (known : Json) (hnew : new.Ordered)
    (hlacks : new.Lacks marker fields) (hunder : Place.Under marker fields place) :
    (known.merge policy new).place? place = known.place? place ∨
      (known.merge policy new).place? place = none := by
  induction place generalizing known new fields with
  | nil => exact absurd hunder Place.not_under_nil
  | cons hop place ih =>
    rw [place?_cons, place?_cons]
    cases hop with
    | item index =>
      cases harray : new.isArray with
      | false =>
        rw [hop?_item_merge_of_not_array harray]
        exact .inr rfl
      | true =>
        obtain ⟨items, rfl⟩ := exists_items_of_isArray harray
        -- the item is a known one, or one of the result's, which has nothing there
        rcases hop?_item_merge policy known items index with hsame | ⟨other, hother⟩
        · rw [hsame]
          exact .inl rfl
        · rw [hother, ← place?_cons]
          exact .inr (hlacks _ (under_other_item other hunder))
    | member name =>
      rw [hop?_member, hop?_member]
      cases hobject : new.isObject with
      | false =>
        rw [member?_of_not_object (isObject_merge known hobject)]
        exact .inr rfl
      | true =>
        obtain ⟨members, rfl⟩ := exists_members_of_isObject hobject
        rw [Ordered] at hnew
        rw [member?_merge hnew.1]
        cases hget : Dict.get? members name with
        | none => exact .inl rfl
        | some value =>
          rcases under_member_cases hunder with hlast | ⟨next, rest, rfl, hrest⟩
          · -- here the result would have something at the fields itself
            have hnone := hlacks _ hlast
            rw [place?_cons, hop?_member, member?_object, hget, Option.bind_some,
              place?_nil] at hnone
            cases hnone
          · have hvalue : value.Lacks marker (next :: rest) := by
              have hbelow := hlacks.member
              rw [member?_object, hget] at hbelow
              exact hbelow
            -- what is not known has nothing there either
            have hknown : ((known.member? name).getD .null).place? place
                = (known.member? name).bind fun child => child.place? place := by
              cases known.member? name with
              | none => exact lacks_null place hrest
              | some child => rfl
            rw [Option.bind_some, ← hknown]
            exact ih _ (ordered_of_get? hnew.2 hget) hvalue hrest

/-- **A result that has something there brings something.**  In a list it need not stand at the same
place, but at some place at or below the fields. -/
theorem exists_place?_merge (policy : ListPolicy) (known : Json) (hnew : new.Ordered)
    (hunder : Place.Under marker fields place) (hthere : new.place? place ≠ none) :
    ∃ other, Place.Under marker fields other ∧ (known.merge policy new).place? other ≠ none := by
  induction place generalizing known new fields with
  | nil => exact absurd hunder Place.not_under_nil
  | cons hop place ih =>
    cases hop with
    | item index =>
      cases harray : new.isArray with
      | false =>
        rw [place?_cons, hop?_item_of_not_array harray] at hthere
        exact absurd rfl hthere
      | true =>
        obtain ⟨items, rfl⟩ := exists_items_of_isArray harray
        obtain ⟨other, hother⟩ := exists_hop?_item_merge policy known items index
        refine ⟨.item other :: place, under_other_item other hunder, ?_⟩
        rw [place?_cons, hother, ← place?_cons]
        exact hthere
    | member name =>
      cases hobject : new.isObject with
      | false =>
        rw [place?_cons, hop?_member, member?_of_not_object hobject] at hthere
        exact absurd rfl hthere
      | true =>
        obtain ⟨members, rfl⟩ := exists_members_of_isObject hobject
        rw [Ordered] at hnew
        rw [place?_cons, hop?_member, member?_object] at hthere
        cases hget : Dict.get? members name with
        | none =>
          rw [hget] at hthere
          exact absurd rfl hthere
        | some value =>
          rw [hget, Option.bind_some] at hthere
          have hmerged : (known.merge policy (.object members)).member? name = _ :=
            member?_merge hnew.1 known name
          rw [hget] at hmerged
          rcases under_member_cases hunder with hlast | ⟨next, rest, rfl, hrest⟩
          · refine ⟨_, hlast, ?_⟩
            rw [place?_cons, hop?_member, hmerged, Option.bind_some, place?_nil]
            exact Option.some_ne_none _
          · obtain ⟨other, hother, hsome⟩ := ih _ (ordered_of_get? hnew.2 hget) hrest hthere
            refine ⟨.member name :: other, Place.under_member.2 ⟨rfl, hother⟩, ?_⟩
            rw [place?_cons, hop?_member, hmerged, Option.bind_some]
            exact hsome

/-! ### Equal values -/

theorem getElem?_of_sameItems {xs ys : List Json} (h : sameItems xs ys = true) (index : Nat) :
    (xs[index]? = none ∧ ys[index]? = none) ∨
    ∃ x y, xs[index]? = some x ∧ ys[index]? = some y ∧ x.same y = true := by
  induction xs generalizing ys index with
  | nil =>
    cases ys with
    | nil => exact .inl ⟨rfl, rfl⟩
    | cons y ys => rw [sameItems] at h <;> exact absurd h nofun
  | cons x xs ih =>
    cases ys with
    | nil => rw [sameItems] at h <;> exact absurd h nofun
    | cons y ys =>
      rw [sameItems, Bool.and_eq_true] at h
      cases index with
      | zero => exact .inr ⟨x, y, rfl, rfl, h.1⟩
      | succ index => exact ih h.2 index

/-- A hop leads from equal values to equal values, or from both nowhere. -/
theorem hop?_of_same (h : v.same w = true) (hop : Hop) :
    (v.hop? hop = none ∧ w.hop? hop = none) ∨
    ∃ x y, v.hop? hop = some x ∧ w.hop? hop = some y ∧ x.same y = true := by
  cases v with
  | object xs =>
    cases w with
    | object ys =>
      rw [same] at h
      cases hop with
      | member name => exact get?_of_sameMembers h name
      | item index => exact .inl ⟨rfl, rfl⟩
    | _ => rw [same] at h <;> exact absurd h nofun
  | array xs =>
    cases w with
    | array ys =>
      rw [same] at h
      cases hop with
      | member name => exact .inl ⟨rfl, rfl⟩
      | item index => exact getElem?_of_sameItems h index
    | _ => rw [same] at h <;> exact absurd h nofun
  | _ =>
    -- scalars lead nowhere
    cases w with
    | object ys => rw [same] at h <;> exact absurd h nofun
    | array ys => rw [same] at h <;> exact absurd h nofun
    | _ => cases hop <;> exact .inl ⟨rfl, rfl⟩

/-- Equal values have something at the same places. -/
theorem isSome_place?_of_same (h : v.same w = true) (place : Place) :
    (v.place? place).isSome = (w.place? place).isSome := by
  induction place generalizing v w with
  | nil => rw [place?_nil, place?_nil]; rfl
  | cons hop place ih =>
    rw [place?_cons, place?_cons]
    rcases hop?_of_same h hop with ⟨hv, hw⟩ | ⟨x, y, hv, hw, hxy⟩
    · rw [hv, hw]
    · rw [hv, hw]
      exact ih hxy

theorem Lacks.of_same (h : v.same w = true) (hw : w.Lacks marker fields) :
    v.Lacks marker fields := by
  intro place hunder
  have hnone := isSome_place?_of_same h place
  rw [hw place hunder] at hnone
  exact Option.not_isSome_iff_eq_none.1 (Bool.eq_false_iff.1 hnone)

/-! ### Marked results -/

theorem orderedMembers_ofList {entries : List (String × Json)} (h : OrderedMembers entries) :
    OrderedMembers (Dict.ofList entries) := by
  suffices hfold : ∀ d : Dict Json, OrderedMembers d → OrderedMembers
      (entries.foldl (fun d entry => Dict.insert d entry.1 entry.2) d) from hfold [] trivial
  induction entries with
  | nil => exact fun d hd => hd
  | cons entry entries ih =>
    intro d hd
    rw [OrderedMembers] at h
    refine ih h.2 _ (orderedMembers_iff.2 fun other hother => ?_)
    rcases Dict.mem_insert hother with rfl | hother
    · exact h.1
    · exact orderedMembers_iff.1 hd other hother

mutual

/-- Whatever is marked is ordered. -/
theorem ordered_mark (m : Char) : ∀ v : Json, (v.mark m).Ordered
  | .null => by simp [mark, Ordered]
  | .bool _ => by simp [mark, Ordered]
  | .number _ => by simp [mark, Ordered]
  | .string _ => by simp [mark, Ordered]
  | .array items => by
    rw [mark, Ordered]
    exact orderedItems_mark m items
  | .object members => by
    rw [mark, Ordered]
    exact ⟨Dict.ascending_ofList _, orderedMembers_ofList (orderedMembers_mark m members)⟩

theorem orderedItems_mark (m : Char) : ∀ items : List Json, OrderedItems (markItems m items)
  | [] => trivial
  | item :: items => ⟨ordered_mark m item, orderedItems_mark m items⟩

theorem orderedMembers_mark (m : Char) :
    ∀ members : List (String × Json), OrderedMembers (markMembers m members)
  | [] => trivial
  | (_, value) :: members => ⟨ordered_mark m value, orderedMembers_mark m members⟩

end

end Json

theorem Merger.ordered_stored (merger : Merger) {result : Json} (h : result.Ordered) :
    (merger.stored result).Ordered := by
  unfold stored
  cases merger.marker with
  | none => exact h
  | some m => exact Json.ordered_mark m result

namespace State

open Json

variable {marker : Option Char} {fields : List String} {s : State} {merger : Merger} {result : Json}

/-- A result that has nothing at or below the fields leaves there what was known, or nothing. -/
theorem place?_absorb_of_lacks (hresult : result.Ordered)
    (hlacks : (merger.stored result).Lacks marker fields) {place : Place}
    (hunder : Place.Under marker fields place) :
    (s.absorb merger result).2.value.place? place = s.value.place? place ∨
      (s.absorb merger result).2.value.place? place = none := by
  rw [absorb_eq]
  split
  · exact place?_merge_of_lacks merger.lists s.value (merger.ordered_stored hresult) hlacks hunder
  · exact .inl rfl

theorem lacks_absorb (hresult : result.Ordered) (hs : s.value.Lacks marker fields)
    (hlacks : (merger.stored result).Lacks marker fields) :
    (s.absorb merger result).2.value.Lacks marker fields := by
  intro place hunder
  rcases place?_absorb_of_lacks (s := s) hresult hlacks hunder with hsame | hnone
  · rw [hsame]
    exact hs place hunder
  · exact hnone

/-- A result that has something at or below the fields leaves something there. -/
theorem not_lacks_absorb (hresult : result.Ordered)
    (hthere : ¬(merger.stored result).Lacks marker fields) :
    ¬(s.absorb merger result).2.value.Lacks marker fields := by
  have hmerged : ¬(merger.apply s.value result).Lacks marker fields := by
    intro hlacks
    refine hthere fun place hunder => ?_
    cases hplace : (merger.stored result).place? place with
    | none => rfl
    | some w =>
      obtain ⟨other, hother, hmerged⟩ := exists_place?_merge merger.lists s.value
        (merger.ordered_stored hresult) hunder (hplace ▸ Option.some_ne_none w)
      exact absurd (hlacks other hother) hmerged
  rw [absorb_eq]
  split
  · exact hmerged
  · next hidle =>
    cases hnull : result.isNull with
    | false =>
      have hsame : (merger.apply s.value result).same s.value = true := by
        rw [← Bool.not_eq_false]
        exact fun hdiffers => hidle ⟨hnull, hdiffers⟩
      exact fun hlacks => hmerged (hlacks.of_same hsame)
    | true =>
      -- such a result has nothing anywhere
      have hstored : merger.stored result = .null := by
        cases result with
        | null =>
          unfold Merger.stored
          cases merger.marker with
          | none => rfl
          | some m => exact mark_of_scalar m rfl
        | _ => cases hnull
      rw [hstored] at hthere
      exact absurd lacks_null hthere

end State

end GraphWalk
