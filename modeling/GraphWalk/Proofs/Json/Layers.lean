import GraphWalk.Proofs.Json.Merging

/-!
# A result laid over what is known

Following one name through a merged value is merging what the name leads to on either
side; where nothing is known, `null` stands for it, which any result replaces.  So what a
merged value has at a place is told by the two values at that place, and by how far the
result reaches on the way there.

## Main definitions

* `Json.LastReached` — the longest beginning of some names at which a value has something.

## Main results

* `Json.member?_merge` — one name followed through a merged value.
* `Json.at?_merge_of_reached`, `Json.at?_merge_of_unreached` — a place that the result
  reaches, and one that it does not.
* `Json.merge_by_place` — **what a merged value has at a place.**
-/

namespace GraphWalk

namespace Json

variable {policy : ListPolicy} {known new v w : Json} {name : String} {names init : List String}

/-- The longest beginning of some names at which a value has something, and what it has there. -/
structure LastReached (v : Json) (names init : List String) (w : Json) : Prop where
  begins : init <+: names
  reached : v.at? init = some w
  longest : ∀ longer, longer <+: names → (v.at? longer).isSome = true → longer <+: init

/-- Every value has something at the beginning of every way. -/
theorem exists_lastReached (v : Json) (names : List String) :
    ∃ init w, v.LastReached names init w := by
  induction names generalizing v with
  | nil => exact ⟨[], v, List.prefix_rfl, at?_nil v, fun _ hlonger _ => hlonger⟩
  | cons name names ih =>
    cases hmember : v.member? name with
    | none =>
      refine ⟨[], v, List.nil_prefix, at?_nil v, ?_⟩
      -- nothing is reached through the name, so only the empty way leads anywhere
      intro longer hlonger hsome
      rcases List.prefix_cons_iff.1 hlonger with rfl | ⟨rest, rfl, -⟩
      · exact List.prefix_rfl
      · rw [at?_cons, hmember] at hsome
        cases hsome
    | some child =>
      obtain ⟨init, w, hbegins, hreached, hlongest⟩ := ih child
      refine ⟨name :: init, w, ?_, ?_, ?_⟩
      · exact List.cons_prefix_cons.2 ⟨rfl, hbegins⟩
      · rw [at?_cons, hmember]
        exact hreached
      · intro longer hlonger hsome
        rcases List.prefix_cons_iff.1 hlonger with rfl | ⟨rest, rfl, hrest⟩
        · exact List.nil_prefix
        · rw [at?_cons, hmember] at hsome
          exact List.cons_prefix_cons.2 ⟨rfl, hlongest rest hrest hsome⟩

/-- Behind the longest beginning the next name leads nowhere. -/
theorem LastReached.member?_eq_none {more : List String}
    (h : v.LastReached (init ++ name :: more) init w) : w.member? name = none := by
  cases hmember : w.member? name with
  | none => rfl
  | some child =>
    have hfurther : v.at? (init ++ [name]) = some child := by
      simp [at?_append, h.reached, hmember]
    have hlonger : init ++ [name] <+: init ++ name :: more := by simp
    have hshort := (h.longest _ hlonger (by rw [hfurther]; rfl)).length_le
    rw [List.length_append, List.length_singleton] at hshort
    omega

/-- What an ordered value holds is ordered. -/
theorem Ordered.at? (h : v.Ordered) (hw : v.at? names = some w) : w.Ordered := by
  induction names generalizing v with
  | nil =>
    rw [at?_nil] at hw
    exact Option.some.inj hw ▸ h
  | cons name names ih =>
    obtain ⟨members, child, rfl, hchild, hw⟩ := exists_member_of_at?_cons hw
    rw [Ordered] at h
    exact ih (ordered_of_get? h.2 hchild) hw

/-! ### What stands where nothing is known -/

@[simp] theorem null_merge (policy : ListPolicy) (new : Json) : null.merge policy new = new := by
  cases new <;> simp [merge]

@[simp] theorem at?_null_getD (names : List String) : (null.at? names).getD .null = null := by
  cases names <;> rfl

/-- A member that is unknown has nothing below it. -/
theorem at?_getD_member? (known : Json) (name : String) (names : List String) :
    (((known.member? name).getD .null).at? names).getD .null
      = (known.at? (name :: names)).getD .null := by
  rw [at?_cons]
  cases known.member? name with
  | none => exact at?_null_getD names
  | some child => rfl

/-! ### Following names through a merged value -/

/-- The members of a result lie over those of what is known, if that has any. -/
theorem member?_merge {members : Dict Json} (hnew : Dict.Ascending members) (known : Json)
    (name : String) :
    (known.merge policy (.object members)).member? name
      = match Dict.get? members name with
        | some value => some (((known.member? name).getD .null).merge policy value)
        | none => known.member? name := by
  by_cases hknown : ∃ old, known = .object old
  · obtain ⟨old, rfl⟩ := hknown
    rw [merge_object_object, member?_object, get?_mergeMembers hnew, member?_object]
    cases Dict.get? members name with
    | none => rfl
    | some value => cases Dict.get? old name <;> simp [mergeInto]
  · have hnone : known.member? name = none := by
      cases known with
      | object old => exact absurd ⟨old, rfl⟩ hknown
      | _ => rfl
    rw [merge_object_of_not_object fun old h => hknown ⟨old, h⟩, hnone, member?_object]
    cases Dict.get? members name <;> simp

/-- Only an object has members. -/
theorem member?_of_not_object (hv : v.isObject = false) (name : String) :
    v.member? name = none := by
  cases v with
  | object members => cases hv
  | _ => rfl

theorem exists_members_of_isObject (hv : v.isObject = true) : ∃ members, v = .object members := by
  cases v with
  | object members => exact ⟨members, rfl⟩
  | _ => cases hv

/-- A result that is no object leaves no object. -/
theorem isObject_merge (known : Json) (hnew : new.isObject = false) :
    (known.merge policy new).isObject = false := by
  cases new with
  | object members => cases hnew
  | array items => cases known <;> simp [merge, isObject]
  | _ => rw [merge_of_scalar policy known rfl]; rfl

/-- At a place that the result reaches, its value is merged into what is known there. -/
theorem at?_merge_of_reached (hnew : new.Ordered) (hw : new.at? names = some w) :
    (known.merge policy new).at? names
      = some (((known.at? names).getD .null).merge policy w) := by
  induction names generalizing known new with
  | nil =>
    rw [at?_nil] at hw
    rw [at?_nil, at?_nil, ← Option.some.inj hw]
    rfl
  | cons name names ih =>
    obtain ⟨members, child, rfl, hchild, hw⟩ := exists_member_of_at?_cons hw
    rw [Ordered] at hnew
    rw [at?_cons, member?_merge hnew.1, hchild, ← at?_getD_member?]
    exact ih (ordered_of_get? hnew.2 hchild) hw

/-- A place that the result does not reach keeps what is known there if the result stops at an
object, and is gone otherwise. -/
theorem at?_merge_of_unreached (hnew : new.Ordered) (hlast : new.LastReached names init w)
    (hunreached : new.at? names = none) :
    (known.merge policy new).at? names = if w.isObject then known.at? names else none := by
  obtain ⟨more, rfl⟩ := hlast.begins
  cases more with
  | nil =>
    rw [List.append_nil, hlast.reached] at hunreached
    cases hunreached
  | cons name more =>
    -- the merged value is followed as far as the result reaches, and then by one more name
    have hstop : w.member? name = none := hlast.member?_eq_none
    have hwordered : w.Ordered := hnew.at? hlast.reached
    rw [at?_append, at?_merge_of_reached hnew hlast.reached, Option.bind_some, at?_cons, at?_append]
    cases hobject : w.isObject with
    | true =>
      obtain ⟨members, rfl⟩ := exists_members_of_isObject hobject
      rw [Ordered] at hwordered
      rw [member?_object] at hstop
      rw [member?_merge hwordered.1, hstop, if_pos rfl]
      cases known.at? init <;> rfl
    | false =>
      rw [member?_of_not_object (isObject_merge _ hobject), if_neg Bool.false_ne_true]
      rfl

/-- The names of merged objects are those of either. -/
theorem mem_keys_mergeMembers {members : Dict Json} (hnew : Dict.Ascending members)
    (old : Dict Json) (name : String) :
    name ∈ Dict.keys (mergeMembers policy old members)
      ↔ name ∈ Dict.keys members ∨ name ∈ Dict.keys old := by
  have hkeys : ∀ d : Dict Json, name ∈ Dict.keys d ↔ Dict.get? d name ≠ none := by
    intro d
    rw [Ne, Dict.get?_eq_none_iff, Decidable.not_not]
  rw [hkeys, hkeys, hkeys, get?_mergeMembers hnew]
  cases Dict.get? members name with
  | none => simp
  | some value => simp

/-- **What a merged value has at a place.**

A scalar of the result is there as it is.  A list of the result follows the known list, if there is
one and lists are joined, and stands alone otherwise.  An object of the result gets the names that
are known there beside its own.  Where the result has nothing, what is known there stays if the
result stops at an object on the way, and nothing is left if it stops at anything else. -/
theorem merge_by_place (policy : ListPolicy) (known : Json) (hnew : new.Ordered)
    (names : List String) :
    (∀ v, new.at? names = some v → v.isContainer = false →
      (known.merge policy new).at? names = some v) ∧
    (∀ items, new.at? names = some (.array items) →
      (known.merge policy new).at? names = some (.array (match policy, known.at? names with
        | .concat, some (.array old) => old ++ items
        | _, _ => items))) ∧
    (∀ members, new.at? names = some (.object members) →
      ∃ all, (known.merge policy new).at? names = some (.object all) ∧
        ∀ name, name ∈ Dict.keys all ↔ name ∈ Dict.keys members ∨
          ∃ old, known.at? names = some (.object old) ∧ name ∈ Dict.keys old) ∧
    (new.at? names = none →
      ∃ init w, new.LastReached names init w ∧
        (known.merge policy new).at? names = if w.isObject then known.at? names else none) := by
  refine ⟨?scalar, ?array, ?object, ?unreached⟩
  case scalar =>
    intro v hv hscalar
    rw [at?_merge_of_reached hnew hv, merge_of_scalar policy _ hscalar]
  case array =>
    intro items hitems
    rw [at?_merge_of_reached hnew hitems]
    cases known.at? names with
    | none => cases policy <;> simp
    | some old => cases old <;> cases policy <;> simp [merge]
  case object =>
    intro members hmembers
    have hascending : Dict.Ascending members := by
      have hordered := hnew.at? hmembers
      rw [Ordered] at hordered
      exact hordered.1
    rw [at?_merge_of_reached hnew hmembers]
    by_cases hobject : ∃ old, known.at? names = some (.object old)
    · obtain ⟨old, hold⟩ := hobject
      refine ⟨mergeMembers policy old members, by rw [hold]; simp, fun name => ?_⟩
      rw [mem_keys_mergeMembers hascending, hold]
      simp
    · refine ⟨members, ?_, fun name => ?_⟩
      · rw [merge_object_of_not_object]
        intro old hold
        cases hknown : known.at? names with
        | none => rw [hknown] at hold; cases hold
        | some value =>
          rw [hknown, Option.getD_some] at hold
          exact hobject ⟨old, by rw [hknown, hold]⟩
      · refine ⟨.inl, fun h => h.resolve_right ?_⟩
        rintro ⟨old, hold, -⟩
        exact hobject ⟨old, hold⟩
  case unreached =>
    intro hnone
    obtain ⟨init, w, hlast⟩ := exists_lastReached new names
    exact ⟨init, w, hlast, at?_merge_of_unreached hnew hlast hnone⟩

/-- A result that continues one list of an item and puts a text in place of another field. -/
theorem merge_by_place_item :
    let known : Json := .object
      [("item", .object [("id", .number (.int 5)), ("tags", .array [.string "old"])])]
    let new : Json := .object
      [("item", .object [("id", .string "five"), ("tags", .array [.string "new"])])]
    (known.merge .concat new).at? ["item", "id"] = some (.string "five") ∧
      (known.merge .concat new).at? ["item", "tags"]
        = some (.array [.string "old", .string "new"]) := by
  intro known new
  have hfields : Dict.Ascending
      [("id", Json.string "five"), ("tags", .array [.string "new"])] := by
    refine List.pairwise_cons.2 ⟨fun entry hentry => ?_, List.pairwise_singleton _ _⟩
    rw [List.mem_singleton.1 hentry]
    decide
  have hnew : new.Ordered :=
    ⟨List.pairwise_singleton _ _, ⟨hfields, trivial, ⟨trivial, trivial⟩, trivial⟩, trivial⟩
  obtain ⟨hscalar, -⟩ := merge_by_place .concat known hnew ["item", "id"]
  obtain ⟨-, harray, -⟩ := merge_by_place .concat known hnew ["item", "tags"]
  exact ⟨hscalar _ rfl rfl, harray _ rfl⟩

end Json

end GraphWalk
