import GraphWalk.Proofs.Json.Marking

/-!
# Taking the marker off again

Marking puts the marker in front of the names of scalars, and unmarking takes one marker
off the name of every scalar.  What was marked comes back unless a marked name was taken
already: then one of the two members is lost.

## Main definitions

* `Json.unmark m v` — the value with one marker taken off every scalar's name, at every depth.
* `Json.Clash` — the marked name of a scalar is the name of a list or an object beside it.
* `Json.ClashFree` — there is no such object in a value.

## Main results

* `Json.nodup_keys_markMembers_iff` — marked members have different names exactly if there is no
  clash among them.
* `Json.unmark_mark_object_iff` — what comes back of an object.
* `Json.unmark_mark_iff` — **marking loses nothing exactly where nothing clashes.**
-/

namespace GraphWalk

/-- A name without the marker in front, if it has one. -/
def bareName (marker : Char) (name : String) : String := (unmarked? marker name).getD name

@[simp] theorem bareName_marked (marker : Char) (name : String) :
    bareName marker (marked marker name) = name := by
  simp [bareName]

namespace Json

mutual

/-- The value with one marker taken off every name that holds a scalar, at every depth. -/
def unmark (marker : Char) : Json → Json
  | .object members => .object (Dict.ofList (unmarkMembers marker members))
  | .array items => .array (unmarkItems marker items)
  | scalar => scalar

/-- The items, each unmarked. -/
def unmarkItems (marker : Char) : List Json → List Json
  | [] => []
  | item :: items => item.unmark marker :: unmarkItems marker items

/-- The members, each unmarked: a list or an object keeps its name. -/
def unmarkMembers (marker : Char) : List (String × Json) → List (String × Json)
  | [] => []
  | (name, value) :: members =>
    (if value.isContainer then name else bareName marker name, value.unmark marker)
      :: unmarkMembers marker members

end

/-- The marked name of a scalar is the name of a list or an object. -/
def Clash (marker : Char) (members : Dict Json) : Prop :=
  ∃ name scalar container,
    Dict.get? members name = some scalar ∧ scalar.isContainer = false ∧
    Dict.get? members (marked marker name) = some container ∧ container.isContainer = true

/-- Nothing clashes in any object that the value holds. -/
def ClashFree (marker : Char) : Json → Prop :=
  EveryObject fun members => ¬Clash marker members

variable {marker : Char} {v : Json} {items : List Json} {members : Dict Json}

/-! ### Values that are marked and unmarked -/

theorem unmarkItems_eq_map (marker : Char) (items : List Json) :
    unmarkItems marker items = items.map (unmark marker) := by
  induction items with
  | nil => rfl
  | cons item items ih => simp [unmarkItems, ih]

theorem unmarkMembers_eq_map (marker : Char) (members : List (String × Json)) :
    unmarkMembers marker members = members.map fun entry =>
      (if entry.2.isContainer then entry.1 else bareName marker entry.1,
        entry.2.unmark marker) := by
  induction members with
  | nil => rfl
  | cons entry members ih => simp [unmarkMembers, ih]

@[simp] theorem unmark_of_scalar (marker : Char) (h : v.isContainer = false) :
    v.unmark marker = v := by
  cases v with
  | object members => cases h
  | array items => cases h
  | _ => rw [unmark] <;> nofun

theorem unmark_mark_of_scalar (hv : v.isContainer = false) :
    (v.mark marker).unmark marker = v := by
  rw [mark_of_scalar marker hv, unmark_of_scalar marker hv]

/-- The name that a member has got is taken from it again. -/
theorem unmarkMembers_markMembers (marker : Char) (members : List (String × Json)) :
    unmarkMembers marker (markMembers marker members)
      = Dict.mapValues (fun value => (value.mark marker).unmark marker) members := by
  rw [unmarkMembers_eq_map, markMembers_eq_map, List.map_map, Dict.mapValues]
  apply List.map_congr_left
  intro entry _
  cases hkind : entry.2.isContainer with
  | true => simp [hkind]
  | false => simp [hkind]

/-! ### Members whose names clash -/

/-- A list or an object whose name a scalar gets clashes with it. -/
theorem clash_of_mem (h : Dict.Ascending members) {entry other : String × Json}
    (hentry : entry ∈ members) (hother : other ∈ members) (hkind : entry.2.isContainer = false)
    (hkind' : other.2.isContainer = true) (hname : marked marker entry.1 = other.1) :
    Clash marker members := by
  refine ⟨entry.1, entry.2, other.2, Dict.get?_of_mem h hentry, hkind, ?_, hkind'⟩
  rw [hname]
  exact Dict.get?_of_mem h hother

/-- The names of the marked members. -/
theorem keys_markMembers (marker : Char) (members : Dict Json) :
    Dict.keys (markMembers marker members)
      = members.map fun entry => kindName marker entry.2.isContainer entry.1 := by
  rw [markMembers_eq_map, Dict.keys, List.map_map]
  rfl

/-- **Marked members have different names exactly if there is no clash among them.** -/
theorem nodup_keys_markMembers_iff (h : Dict.Ascending members) :
    (Dict.keys (markMembers marker members)).Nodup ↔ ¬Clash marker members := by
  rw [keys_markMembers]
  constructor
  · rintro hnodup ⟨name, scalar, container, hscalar, hkind, hcontainer, hkind'⟩
    -- the two members that clash have the same name in the end
    have hsame : (name, scalar) = (marked marker name, container) := by
      refine List.inj_on_of_nodup_map hnodup (Dict.mem_of_get?_eq_some hscalar)
        (Dict.mem_of_get?_eq_some hcontainer) ?_
      simp [kindName, hkind, hkind']
    rw [(Prod.mk.inj hsame).2, hkind'] at hkind
    cases hkind
  · intro hclash
    have hinj := List.inj_on_of_nodup_map (Dict.nodup_keys_of_ascending h)
    refine List.Nodup.map_on ?_ (List.Nodup.of_map _ (Dict.nodup_keys_of_ascending h))
    intro entry hentry other hother hname
    cases hkind : entry.2.isContainer with
    | true =>
      cases hkind' : other.2.isContainer with
      | true =>
        rw [hkind, hkind'] at hname
        exact hinj hentry hother hname
      | false =>
        rw [hkind, hkind'] at hname
        exact absurd (clash_of_mem h hother hentry hkind' hkind hname.symm) hclash
    | false =>
      cases hkind' : other.2.isContainer with
      | true =>
        rw [hkind, hkind'] at hname
        exact absurd (clash_of_mem h hentry hother hkind hkind' hname) hclash
      | false =>
        rw [hkind, hkind'] at hname
        exact hinj hentry hother (marked_injective marker hname)

/-- Where nothing clashes the members come back, each with what comes back of its value. -/
theorem unmark_mark_of_not_clash (h : Dict.Ascending members) (hclash : ¬Clash marker members) :
    ((object members).mark marker).unmark marker
      = .object (Dict.mapValues (fun value => (value.mark marker).unmark marker) members) := by
  have hback := Dict.ascending_mapValues h fun value => (value.mark marker).unmark marker
  have hcollected := Dict.perm_ofList ((nodup_keys_markMembers_iff h).2 hclash)
  have hunmarked : (unmarkMembers marker (Dict.ofList (markMembers marker members))).Perm
      (Dict.mapValues (fun value => (value.mark marker).unmark marker) members) := by
    rw [← unmarkMembers_markMembers, unmarkMembers_eq_map, unmarkMembers_eq_map]
    exact hcollected.map _
  rw [mark, unmark, ← Dict.ofList_eq_of_perm (Dict.nodup_keys_of_ascending hback) hunmarked.symm,
    Dict.ofList_of_ascending hback]

/-- If the members come back, none of them was lost. -/
theorem not_clash_of_unmark_mark (h : Dict.Ascending members)
    (hback : ((object members).mark marker).unmark marker = .object members) :
    ¬Clash marker members := by
  rw [← nodup_keys_markMembers_iff h]
  apply Dict.nodup_keys_of_length_le
  rw [mark, unmark] at hback
  calc (markMembers marker members).length
    _ = members.length := by simp [markMembers_eq_map]
    _ = (Dict.ofList (unmarkMembers marker (Dict.ofList (markMembers marker members)))).length :=
      congrArg List.length (Json.object.inj hback).symm
    _ ≤ (unmarkMembers marker (Dict.ofList (markMembers marker members))).length :=
      Dict.length_ofList_le _
    _ = (Dict.ofList (markMembers marker members)).length := by simp [unmarkMembers_eq_map]

/-- **What comes back of an object**: all of it exactly if nothing clashes and every value comes
back. -/
theorem unmark_mark_object_iff (h : Dict.Ascending members) :
    ((object members).mark marker).unmark marker = .object members
      ↔ ¬Clash marker members ∧
        ∀ entry ∈ members, (entry.2.mark marker).unmark marker = entry.2 := by
  constructor
  · intro hback
    have hclash := not_clash_of_unmark_mark h hback
    rw [unmark_mark_of_not_clash h hclash, Json.object.injEq] at hback
    exact ⟨hclash, Dict.mapValues_eq_self_iff.1 hback⟩
  · rintro ⟨hclash, hvalues⟩
    rw [unmark_mark_of_not_clash h hclash, Dict.mapValues_eq_self_iff.2 hvalues]

theorem unmark_mark_array_iff :
    ((array items).mark marker).unmark marker = .array items
      ↔ ∀ item ∈ items, (item.mark marker).unmark marker = item := by
  rw [mark, unmark, markItems_eq_map, unmarkItems_eq_map, List.map_map, Json.array.injEq]
  simpa using List.map_inj_left (f := unmark marker ∘ mark marker) (g := id)

/-- **Marking loses nothing exactly where nothing clashes.**  What was marked comes back with the
marker taken off if and only if no object at any depth holds both a scalar and a list or an object
that has the scalar's marked name. -/
theorem unmark_mark_iff (marker : Char) : ∀ {v : Json}, v.Ordered →
    ((v.mark marker).unmark marker = v ↔ v.ClashFree marker)
  | .object members, hv => by
    rw [Ordered] at hv
    rw [unmark_mark_object_iff hv.1, ClashFree, everyObject_object_iff,
      ← Dict.forall_mem_iff hv.1]
    refine and_congr_right fun _ => forall₂_congr fun entry hentry => ?_
    have := sizeOf_lt_of_mem hentry
    exact unmark_mark_iff marker (orderedMembers_iff.1 hv.2 entry hentry)
  | .array items, hv => by
    rw [Ordered] at hv
    rw [unmark_mark_array_iff, ClashFree, everyObject_array_iff]
    refine forall₂_congr fun item hitem => ?_
    have := List.sizeOf_lt_of_mem hitem
    exact unmark_mark_iff marker (orderedItems_iff.1 hv item hitem)
  | .null, _ => iff_of_true (unmark_mark_of_scalar rfl) (everyObject_of_scalar rfl)
  | .bool _, _ => iff_of_true (unmark_mark_of_scalar rfl) (everyObject_of_scalar rfl)
  | .number _, _ => iff_of_true (unmark_mark_of_scalar rfl) (everyObject_of_scalar rfl)
  | .string _, _ => iff_of_true (unmark_mark_of_scalar rfl) (everyObject_of_scalar rfl)
termination_by v => sizeOf v

/-- In a list an object with a scalar under `a` comes back unless it has a list or an object under
`$a`; the other way round it comes back. -/
theorem unmark_mark_iff_list :
    let list (members : Dict Json) : Json := .object [("list", .array [.object members])]
    let clashing := list [("$a", .empty), ("a", .null)]
    let free := list [("$a", .null), ("a", .empty)]
    (clashing.mark '$').unmark '$' ≠ clashing ∧ (free.mark '$').unmark '$' = free := by
  intro list clashing free
  have hlt : "$a" < "a" := by decide
  have hmembers : ∀ v w : Json, Dict.Ascending [("$a", v), ("a", w)] := by
    intro v w
    refine List.pairwise_cons.2 ⟨fun entry hentry => ?_, List.pairwise_singleton _ _⟩
    rw [List.mem_singleton.1 hentry]
    exact hlt
  have hordered : ∀ v w : Json, v.Ordered → w.Ordered →
      (list [("$a", v), ("a", w)]).Ordered := by
    intro v w hv hw
    exact ⟨List.pairwise_singleton _ _, ⟨⟨hmembers v w, hv, hw, trivial⟩, trivial⟩, trivial⟩
  have hnull : null.Ordered := trivial
  have hempty : empty.Ordered := ⟨List.Pairwise.nil, trivial⟩
  constructor
  · rw [Ne, unmark_mark_iff '$' (hordered _ _ hempty hnull)]
    intro hfree
    exact hfree [.member "list", .item 0] _ rfl ⟨"a", .null, .empty, rfl, rfl, rfl, rfl⟩
  · rw [unmark_mark_iff '$' (hordered _ _ hnull hempty)]
    have hitem : (object [("$a", null), ("a", empty)]).ClashFree '$' := by
      refine everyObject_object_iff.2 ⟨?_, ?_⟩
      · rintro ⟨name, scalar, container, hscalar, hkind, hcontainer, -⟩
        rw [Dict.get?_cons, Dict.get?_cons] at hscalar
        split at hscalar
        · next hname =>
          rw [hname] at hcontainer
          cases hcontainer
        · split at hscalar
          · cases hscalar
            cases hkind
          · cases hscalar
      · rw [← Dict.forall_mem_iff (hmembers _ _)]
        intro entry hentry
        rcases List.mem_pair.1 hentry with rfl | rfl
        · exact everyObject_of_scalar rfl
        · exact everyObject_object_iff.2 ⟨by rintro ⟨_, _, _, ⟨⟩, -⟩, nofun⟩
    refine everyObject_object_iff.2 ⟨?_, ?_⟩
    · rintro ⟨name, scalar, container, hscalar, hkind, -, -⟩
      obtain ⟨-, rfl⟩ : name = "list" ∧ _ = scalar := by simpa using hscalar
      cases hkind
    · intro name value hvalue
      obtain ⟨-, rfl⟩ : name = "list" ∧ _ = value := by simpa using hvalue
      refine everyObject_array_iff.2 fun item hmem => ?_
      rw [List.mem_singleton.1 hmem]
      exact hitem

end Json

end GraphWalk
