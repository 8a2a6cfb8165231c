import GraphWalk.Proofs.Dict.Entries
import GraphWalk.State

/-!
# What a merged result leaves at a place

A value is looked up by following names through objects.  Merging a result changes a
look-up only where the result has something: a place that the result does not reach
keeps what was known, and a place that was empty takes what the result has.

## Main results

* `Json.get?_mergeMembers` — a look-up among merged members.
* `Json.at?_merge_of_known`, `Json.at?_merge_of_unknown` — a look-up in a merged value.
* `Json.isSome_at?_of_same` — equal values reach the same places.
* `State.value_absorb` — what is known after a result that reaches a new place.
-/

namespace GraphWalk

namespace Json

variable {policy : ListPolicy}

/-! ### Names on the way to a value -/

/-- What is reached through a name is reached in an object. -/
theorem exists_member_of_at?_cons {v w : Json} {name : String} {names : List String}
    (h : v.at? (name :: names) = some w) :
    ∃ members child, v = .object members ∧ Dict.get? members name = some child ∧
      child.at? names = some w := by
  rw [at?_cons, Option.bind_eq_some_iff] at h
  obtain ⟨child, hchild, hw⟩ := h
  cases v with
  | object members => exact ⟨members, child, rfl, hchild, hw⟩
  | _ => cases hchild

/-- On the way to a value there are objects only. -/
theorem exists_object_of_at?_append {v w : Json} {names more : List String}
    (h : v.at? (names ++ more) = some w) (hmore : more ≠ []) :
    ∃ members, v.at? names = some (.object members) := by
  rw [at?_append, Option.bind_eq_some_iff] at h
  obtain ⟨inner, hinner, hw⟩ := h
  cases more with
  | nil => exact absurd rfl hmore
  | cons name more =>
    obtain ⟨members, -, rfl, -, -⟩ := exists_member_of_at?_cons hw
    exact ⟨members, hinner⟩

/-- Every item is ordered. -/
theorem orderedItems_iff {items : List Json} :
    OrderedItems items ↔ ∀ item ∈ items, item.Ordered := by
  induction items with
  | nil => exact ⟨fun _ => nofun, fun _ => trivial⟩
  | cons item items ih => rw [OrderedItems, ih, List.forall_mem_cons]

/-- Every member is ordered. -/
theorem orderedMembers_iff {members : Dict Json} :
    OrderedMembers members ↔ ∀ entry ∈ members, entry.2.Ordered := by
  induction members with
  | nil => exact ⟨fun _ => nofun, fun _ => trivial⟩
  | cons entry members ih => rw [OrderedMembers, ih, List.forall_mem_cons]

theorem ordered_of_get? {members : Dict Json} {name : String} {value : Json}
    (h : OrderedMembers members) (hget : Dict.get? members name = some value) :
    value.Ordered :=
  orderedMembers_iff.1 h _ (Dict.mem_of_get?_eq_some hget)

/-! ### Merging -/

/-- A value merged into what may be known at a place. -/
def mergeInto (policy : ListPolicy) (known : Option Json) (value : Json) : Json :=
  match known with
  | some old => old.merge policy value
  | none => value

theorem mergeMembers_cons (policy : ListPolicy) (known : Dict Json) (name : String) (value : Json)
    (rest : Dict Json) :
    mergeMembers policy known ((name, value) :: rest)
      = mergeMembers policy
          (Dict.insert known name (mergeInto policy (Dict.get? known name) value)) rest := by
  rw [mergeMembers]
  rfl

/-- Every name of the result takes its value, merged into what is known under the name; the others
keep theirs. -/
theorem get?_mergeMembers {new : Dict Json} (hnew : Dict.Ascending new) (known : Dict Json)
    (name : String) :
    Dict.get? (mergeMembers policy known new) name
      = match Dict.get? new name with
        | some value => some (mergeInto policy (Dict.get? known name) value)
        | none => Dict.get? known name := by
  induction new generalizing known with
  | nil =>
    rw [mergeMembers_nil]
    rfl
  | cons entry rest ih =>
    obtain ⟨first, value⟩ := entry
    rw [mergeMembers_cons, ih (List.pairwise_cons.1 hnew).2, Dict.get?_cons]
    by_cases hname : name = first
    · subst hname
      rw [if_pos rfl, Dict.get?_tail_eq_none hnew]
      exact Dict.get?_insert_self _ _ _
    · rw [if_neg hname, Dict.get?_insert_of_ne _ hname]

/-- An object replaces whatever is no object. -/
theorem merge_object_of_not_object {known : Json} (h : ∀ members, known ≠ .object members)
    (new : Dict Json) : known.merge policy (.object new) = .object new := by
  cases known with
  | object members => exact absurd rfl (h members)
  | _ =>
    rw [merge]
    intro members hobject
    cases hobject

/-- What is known at a place stays when the result does not reach the place, and goes there through
objects as far as it goes. -/
theorem at?_merge_of_known {known new v : Json} {names : List String} (hnew : new.Ordered)
    (hv : known.at? names = some v) (hreach : new.at? names = none)
    (hobjects : ∀ init more w, names = init ++ more → more ≠ [] → new.at? init = some w →
      ∃ members, w = .object members) :
    (known.merge policy new).at? names = some v := by
  induction names generalizing known new with
  | nil => rw [at?_nil] at hreach; cases hreach
  | cons name names ih =>
    obtain ⟨members, child, rfl, hchild, hv⟩ := exists_member_of_at?_cons hv
    obtain ⟨newMembers, rfl⟩ := hobjects [] _ new rfl (List.cons_ne_nil _ _) (at?_nil new)
    rw [Ordered] at hnew
    rw [merge_object_object, at?_cons, member?_object, get?_mergeMembers hnew.1]
    rw [at?_cons, member?_object] at hreach
    cases hget : Dict.get? newMembers name with
    | none =>
      rw [hchild]
      exact hv
    | some value =>
      rw [hget] at hreach
      rw [hchild]
      refine ih (ordered_of_get? hnew.2 hget) hv hreach ?_
      intro init more w hsplit hmore hw
      refine hobjects (name :: init) more w ?_ hmore ?_
      · rw [hsplit, List.cons_append]
      · rw [at?_cons, member?_object, hget]
        exact hw

/-- What the result has at a place is there when nothing was known at the place. -/
theorem at?_merge_of_unknown {known new w : Json} {names : List String} (hnew : new.Ordered)
    (hw : new.at? names = some w) (hunknown : known.at? names = none) :
    (known.merge policy new).at? names = some w := by
  induction names generalizing known new with
  | nil => rw [at?_nil] at hunknown; cases hunknown
  | cons name names ih =>
    have hnames := hw
    obtain ⟨newMembers, value, rfl, hget, hw⟩ := exists_member_of_at?_cons hw
    by_cases hknown : ∃ members, known = .object members
    · obtain ⟨members, rfl⟩ := hknown
      rw [Ordered] at hnew
      rw [merge_object_object, at?_cons, member?_object, get?_mergeMembers hnew.1, hget]
      rw [at?_cons, member?_object] at hunknown
      cases hold : Dict.get? members name with
      | none => exact hw
      | some old =>
        rw [hold] at hunknown
        exact ih (ordered_of_get? hnew.2 hget) hw hunknown
    · rw [merge_object_of_not_object fun members h => hknown ⟨members, h⟩]
      exact hnames

/-! ### Equal values -/

theorem get?_of_sameMembers {xs ys : List (String × Json)} (h : sameMembers xs ys = true)
    (name : String) :
    (Dict.get? xs name = none ∧ Dict.get? ys name = none) ∨
    ∃ x y, Dict.get? xs name = some x ∧ Dict.get? ys name = some y ∧ x.same y = true := by
  induction xs generalizing ys with
  | nil =>
    cases ys with
    | nil => exact .inl ⟨rfl, rfl⟩
    | cons y ys => obtain ⟨_, _⟩ := y; rw [sameMembers] at h <;> exact absurd h nofun
  | cons x xs ih =>
    obtain ⟨first, x⟩ := x
    cases ys with
    | nil => rw [sameMembers] at h <;> exact absurd h nofun
    | cons y ys =>
      obtain ⟨second, y⟩ := y
      rw [sameMembers, Bool.and_eq_true, Bool.and_eq_true, beq_iff_eq] at h
      obtain ⟨⟨rfl, hxy⟩, hrest⟩ := h
      rw [Dict.get?_cons, Dict.get?_cons]
      by_cases hname : name = first
      · rw [if_pos hname, if_pos hname]
        exact .inr ⟨x, y, rfl, rfl, hxy⟩
      · rw [if_neg hname, if_neg hname]
        exact ih hrest

/-- Equal values have something at the same places. -/
theorem isSome_at?_of_same {v w : Json} (h : v.same w = true) (names : List String) :
    (v.at? names).isSome = (w.at? names).isSome := by
  induction names generalizing v w with
  | nil => rw [at?_nil, at?_nil]; rfl
  | cons name names ih =>
    rw [at?_cons, at?_cons]
    cases v with
    | object xs =>
      cases w with
      | object ys =>
        rw [same] at h
        rw [member?_object, member?_object]
        rcases get?_of_sameMembers h name with ⟨hx, hy⟩ | ⟨x, y, hx, hy, hxy⟩
        · rw [hx, hy]
        · rw [hx, hy]
          exact ih hxy
      | _ => rw [same] at h <;> exact absurd h nofun
    | _ =>
      cases w with
      | object ys => rw [same] at h <;> exact absurd h nofun
      | _ => rfl

end Json

/-- A result that reaches a place where nothing was known is merged. -/
theorem State.value_absorb {s : State} {merger : Merger} {result : Json} {names : List String}
    (hmarker : merger.marker = none) (hresult : result.isNull = false)
    (hnew : ((s.value.merge merger.lists result).at? names).isSome = true)
    (hold : s.value.at? names = none) :
    (s.absorb merger result).2.value = s.value.merge merger.lists result := by
  have happly : merger.apply s.value result = s.value.merge merger.lists result := by
    rw [Merger.apply, Merger.stored, hmarker]
  have hdiffers : (s.value.merge merger.lists result).same s.value = false := by
    rw [Bool.eq_false_iff]
    intro hsame
    rw [Json.isSome_at?_of_same hsame, hold] at hnew
    cases hnew
  rw [absorb_eq, happly, if_pos ⟨hresult, hdiffers⟩, value_write]

end GraphWalk
