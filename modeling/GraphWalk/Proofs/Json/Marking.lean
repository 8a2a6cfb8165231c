import GraphWalk.Proofs.Json.Arrivals

/-!
# Marked values

A marked value has every field of the plain value under one of two names: a list or an
object under the bare name, a scalar under the marked one.  As long as no field changes
between the two, merging marked values is marking merged ones.  A field that changes
keeps its earlier value under the other name.

## Main definitions

* `Json.Unmarked` — no name at any depth has the marker in front.
* `Json.Plain` — an ordered value that is unmarked.
* `Json.kindName` — the name that a field has as a list or an object, and the one it has as a
  scalar.
* `Json.SameKinds` — wherever two values both have a field, both have a scalar there or neither has.

## Main results

* `Json.member?_mark`, `Json.at?_mark` — what a marked value has under either name of a field.
* `Json.Plain.merge` — merging plain values leaves a plain value.
* `Json.merge_mark_of_sameKinds` — **merging marked values is marking merged ones** as long as no
  field changes its kind.
* `Json.at?_merge_mark_other` — **what a field that changes its kind leaves under its other name.**
-/

namespace GraphWalk

/-- A name has one bare form. -/
theorem marked_injective (marker : Char) {name other : String}
    (h : marked marker name = marked marker other) : name = other := by
  have hsome : unmarked? marker (marked marker name) = some other :=
    unmarked?_eq_some_iff.2 h
  rw [unmarked?_marked] at hsome
  exact Option.some.inj hsome

theorem ne_marked_of_unmarked {marker : Char} {name : String} (h : unmarked? marker name = none)
    (other : String) : name ≠ marked marker other := by
  rintro rfl
  rw [unmarked?_marked] at h
  cases h

namespace Json

mutual

/-- No name has the marker in front, at any depth. -/
def Unmarked (marker : Char) : Json → Prop
  | .array items => UnmarkedItems marker items
  | .object members => UnmarkedMembers marker members
  | _ => True

/-- Every item is unmarked. -/
def UnmarkedItems (marker : Char) : List Json → Prop
  | [] => True
  | item :: items => item.Unmarked marker ∧ UnmarkedItems marker items

/-- Every member has a bare name and is unmarked. -/
def UnmarkedMembers (marker : Char) : List (String × Json) → Prop
  | [] => True
  | (name, value) :: members =>
    unmarked? marker name = none ∧ value.Unmarked marker ∧ UnmarkedMembers marker members

end

/-- An ordered value in which no name has the marker in front. -/
structure Plain (marker : Char) (v : Json) : Prop where
  ordered : v.Ordered
  unmarked : v.Unmarked marker

/-- The name of a field in a marked value: the bare one if it is a list or an object, and the marked
one if it is a scalar. -/
def kindName (marker : Char) (container : Bool) (field : String) : String :=
  if container then field else marked marker field

/-- Wherever both values have a field, both have a scalar there or neither has. -/
def SameKinds (known new : Json) : Prop :=
  ∀ names, names ≠ [] → ∀ old fresh, known.at? names = some old → new.at? names = some fresh →
    old.isContainer = fresh.isContainer

variable {marker : Char} {policy : ListPolicy} {known new v w : Json} {name : String}
  {names : List String} {members : Dict Json}

theorem unmarkedMembers_iff :
    UnmarkedMembers marker members
      ↔ ∀ entry ∈ members, unmarked? marker entry.1 = none ∧ entry.2.Unmarked marker := by
  induction members with
  | nil => exact ⟨fun _ => nofun, fun _ => trivial⟩
  | cons entry members ih =>
    rw [UnmarkedMembers, ih, List.forall_mem_cons, and_assoc]

theorem plain_object_iff :
    (object members).Plain marker
      ↔ Dict.Ascending members ∧
        ∀ entry ∈ members, unmarked? marker entry.1 = none ∧ entry.2.Plain marker := by
  constructor
  · rintro ⟨hordered, hunmarked⟩
    rw [Ordered] at hordered
    refine ⟨hordered.1, fun entry hentry => ?_⟩
    obtain ⟨hname, hvalue⟩ := unmarkedMembers_iff.1 hunmarked entry hentry
    exact ⟨hname, orderedMembers_iff.1 hordered.2 entry hentry, hvalue⟩
  · rintro ⟨hascending, hmembers⟩
    constructor
    · rw [Ordered, orderedMembers_iff]
      exact ⟨hascending, fun entry hentry => (hmembers entry hentry).2.ordered⟩
    · exact unmarkedMembers_iff.2 fun entry hentry =>
        ⟨(hmembers entry hentry).1, (hmembers entry hentry).2.unmarked⟩

theorem Plain.member? (h : v.Plain marker) (hw : v.member? name = some w) :
    unmarked? marker name = none ∧ w.Plain marker := by
  cases v with
  | object members => exact (plain_object_iff.1 h).2 _ (Dict.mem_of_get?_eq_some hw)
  | _ => cases hw

/-- What a plain value has somewhere is plain. -/
theorem Plain.at? (h : v.Plain marker) (hw : v.at? names = some w) : w.Plain marker := by
  induction names generalizing v with
  | nil =>
    rw [at?_nil] at hw
    exact Option.some.inj hw ▸ h
  | cons name names ih =>
    rw [at?_cons, Option.bind_eq_some_iff] at hw
    obtain ⟨child, hchild, hw⟩ := hw
    exact ih (h.member? hchild).2 hw

/-- On the way to something in a plain value all names are bare. -/
theorem Plain.names_unmarked (h : v.Plain marker) (hw : v.at? names = some w) :
    ∀ name ∈ names, unmarked? marker name = none := by
  induction names generalizing v with
  | nil => nofun
  | cons name names ih =>
    rw [at?_cons, Option.bind_eq_some_iff] at hw
    obtain ⟨child, hchild, hw⟩ := hw
    obtain ⟨hname, hplain⟩ := h.member? hchild
    exact List.forall_mem_cons.2 ⟨hname, ih hplain hw⟩

/-! ### What is merged -/

theorem plain_insert (h : (object members).Plain marker) (hname : unmarked? marker name = none)
    (hv : v.Plain marker) : (object (Dict.insert members name v)).Plain marker := by
  obtain ⟨hascending, hmembers⟩ := plain_object_iff.1 h
  refine plain_object_iff.2 ⟨Dict.ascending_insert hascending name v, fun entry hentry => ?_⟩
  rcases Dict.mem_insert hentry with rfl | hentry
  · exact ⟨hname, hv⟩
  · exact hmembers entry hentry

theorem plain_join (policy : ListPolicy) {old items : List Json}
    (hold : (array old).Plain marker) (hitems : (array items).Plain marker) :
    (array (policy.join old items)).Plain marker := by
  have happend : (array (old ++ items)).Plain marker := by
    clear policy
    induction old with
    | nil => exact hitems
    | cons item old ih =>
      obtain ⟨⟨hfirst, hrest⟩, ⟨hbare, hunmarked⟩⟩ := hold
      obtain ⟨hordered, hplain⟩ := ih ⟨hrest, hunmarked⟩
      exact ⟨⟨hfirst, hordered⟩, ⟨hbare, hplain⟩⟩
  cases policy with
  | concat => exact happend
  | replace => exact hitems

mutual

/-- Merging plain values leaves a plain value. -/
theorem Plain.merge (policy : ListPolicy) {known : Json} (hknown : known.Plain marker) :
    ∀ {new : Json}, new.Plain marker → (known.merge policy new).Plain marker
  | .object new, hnew => by
    by_cases hobject : ∃ members, known = .object members
    · obtain ⟨members, rfl⟩ := hobject
      rw [merge_object_object]
      exact Plain.mergeMembers policy hknown hnew
    · rw [merge_object_of_not_object fun members h => hobject ⟨members, h⟩]
      exact hnew
  | .array items, hnew => by
    cases harray : known.isArray with
    | true =>
      obtain ⟨old, rfl⟩ := exists_items_of_isArray harray
      rw [merge_array_array]
      exact plain_join policy hknown hnew
    | false =>
      rw [merge_array_of_not_array harray]
      exact hnew
  | .null, hnew => by
    rw [merge_of_scalar policy known rfl]
    exact hnew
  | .bool _, hnew => by
    rw [merge_of_scalar policy known rfl]
    exact hnew
  | .number _, hnew => by
    rw [merge_of_scalar policy known rfl]
    exact hnew
  | .string _, hnew => by
    rw [merge_of_scalar policy known rfl]
    exact hnew

theorem Plain.mergeMembers (policy : ListPolicy) {old : Dict Json}
    (hold : (object old).Plain marker) : ∀ {new : List (String × Json)},
    (object new).Plain marker → (object (mergeMembers policy old new)).Plain marker
  | [], _ => by
    rw [mergeMembers_nil]
    exact hold
  | (name, value) :: rest, hnew => by
    obtain ⟨hascending, hmembers⟩ := plain_object_iff.1 hnew
    obtain ⟨⟨hname, hvalue⟩, hrest⟩ := List.forall_mem_cons.1 hmembers
    have hmerged : (mergeInto policy (Dict.get? old name) value).Plain marker := by
      unfold mergeInto
      cases hget : Dict.get? old name with
      | none => exact hvalue
      | some known => exact Plain.merge policy (hold.member? hget).2 hvalue
    rw [mergeMembers_cons]
    exact Plain.mergeMembers policy (plain_insert hold hname hmerged)
      (plain_object_iff.2 ⟨(List.pairwise_cons.1 hascending).2, hrest⟩)

end

/-! ### The members of a marked value -/

@[simp] theorem isContainer_mark (marker : Char) (v : Json) :
    (v.mark marker).isContainer = v.isContainer := by
  cases v <;> simp [mark]

theorem isContainer_merge (policy : ListPolicy) (known new : Json) :
    (known.merge policy new).isContainer = new.isContainer := by
  cases new with
  | object members => cases known <;> simp [merge]
  | array items => cases known <;> simp [merge]
  | _ => rw [merge_of_scalar policy known rfl]

/-- Two fields share a name only if they are the same, and of the same kind. -/
theorem kindName_inj {container other : Bool} {field otherField : String}
    (hfield : unmarked? marker field = none) (hother : unmarked? marker otherField = none)
    (h : kindName marker container field = kindName marker other otherField) :
    container = other ∧ field = otherField := by
  cases container with
  | true =>
    cases other with
    | true => exact ⟨rfl, h⟩
    | false => exact absurd h (ne_marked_of_unmarked hfield otherField)
  | false =>
    cases other with
    | true => exact absurd h.symm (ne_marked_of_unmarked hother field)
    | false => exact ⟨rfl, marked_injective marker h⟩

/-- Every name is that of a field. -/
theorem exists_kindName (marker : Char) (name : String) :
    ∃ container field, name = kindName marker container field ∧
      (container = true → unmarked? marker field = none) := by
  cases hname : unmarked? marker name with
  | none => exact ⟨true, name, rfl, fun _ => hname⟩
  | some field => exact ⟨false, field, unmarked?_eq_some_iff.1 hname, nofun⟩

theorem markMembers_cons (marker : Char) (name : String) (value : Json)
    (members : List (String × Json)) :
    markMembers marker ((name, value) :: members)
      = (kindName marker value.isContainer name, value.mark marker)
        :: markMembers marker members := by
  rw [markMembers]
  rfl

/-- The names of marked members are different. -/
theorem nodup_keys_markMembers (h : (object members).Plain marker) :
    (Dict.keys (markMembers marker members)).Nodup := by
  induction members with
  | nil => exact List.nodup_nil
  | cons entry members ih =>
    obtain ⟨name, value⟩ := entry
    obtain ⟨hascending, hmembers⟩ := plain_object_iff.1 h
    obtain ⟨⟨hname, -⟩, hrest⟩ := List.forall_mem_cons.1 hmembers
    obtain ⟨hfirst, hascending⟩ := List.pairwise_cons.1 hascending
    rw [markMembers_cons, Dict.keys_cons, List.nodup_cons]
    refine ⟨fun hmem => ?_, ih (plain_object_iff.2 ⟨hascending, hrest⟩)⟩
    rw [markMembers_eq_map, Dict.keys, List.map_map, List.mem_map] at hmem
    obtain ⟨other, hother, hsame⟩ := hmem
    obtain ⟨-, hfield⟩ := kindName_inj (hrest other hother).1 hname hsame
    have hlt : name < other.1 := hfirst other hother
    rw [hfield] at hlt
    exact String.lt_irrefl name hlt

/-- Under either name a marked object has the field if it is of that kind. -/
theorem get?_markMembers (h : (object members).Plain marker) {container : Bool} {field : String}
    (hfield : container = true → unmarked? marker field = none) :
    Dict.get? (markMembers marker members) (kindName marker container field)
      = ((Dict.get? members field).filter fun v => v.isContainer == container).map
          (mark marker) := by
  induction members with
  | nil => rfl
  | cons entry members ih =>
    obtain ⟨name, value⟩ := entry
    obtain ⟨hascending, hmembers⟩ := plain_object_iff.1 h
    obtain ⟨⟨hname, -⟩, hrest⟩ := List.forall_mem_cons.1 hmembers
    have hbehind := ih (plain_object_iff.2 ⟨(List.pairwise_cons.1 hascending).2, hrest⟩)
    rw [markMembers_cons, Dict.get?_cons, Dict.get?_cons]
    by_cases hkey : field = name
    · subst hkey
      rw [Dict.get?_tail_eq_none hascending] at hbehind
      rw [if_pos rfl]
      by_cases hkind : value.isContainer = container
      · rw [hkind, if_pos rfl, Option.filter_some, if_pos (beq_iff_eq.2 hkind), Option.map_some]
      · rw [if_neg fun hsame => hkind (kindName_inj hname hname hsame.symm).1, hbehind,
          Option.filter_some, if_neg fun hsame => hkind (beq_iff_eq.1 hsame)]
        rfl
    · rw [if_neg hkey, if_neg]
      · exact hbehind
      · intro hsame
        -- a name that is marked twice is no field's
        cases container with
        | true => exact hkey (kindName_inj (hfield rfl) hname hsame).2
        | false =>
          cases hkind : value.isContainer with
          | true =>
            rw [hkind] at hsame
            exact ne_marked_of_unmarked hname field hsame.symm
          | false =>
            rw [hkind] at hsame
            exact hkey (marked_injective marker hsame)

/-- **Under either name a marked value has the field if it is of that kind.** -/
theorem member?_mark (h : v.Plain marker) {container : Bool} {field : String}
    (hfield : container = true → unmarked? marker field = none) :
    (v.mark marker).member? (kindName marker container field)
      = ((v.member? field).filter fun v => v.isContainer == container).map (mark marker) := by
  cases v with
  | object members =>
    rw [mark, member?_object, Dict.get?_ofList_of_nodup (nodup_keys_markMembers h)]
    exact get?_markMembers h hfield
  | array items =>
    rw [mark]
    rfl
  | _ =>
    rw [mark_of_scalar _ rfl]
    rfl

/-- Only lists and objects are gone into, and these keep their names. -/
theorem at?_mark (h : v.Plain marker) (hnames : ∀ name ∈ names, unmarked? marker name = none)
    {container : Bool} {field : String} (hfield : unmarked? marker field = none) :
    (v.mark marker).at? (names ++ [kindName marker container field])
      = ((v.at? (names ++ [field])).filter fun v => v.isContainer == container).map
          (mark marker) := by
  induction names generalizing v with
  | nil =>
    rw [List.nil_append, List.nil_append, at?_cons, at?_cons, member?_mark h fun _ => hfield]
    cases v.member? field with
    | none => rfl
    | some child =>
      rw [Option.bind_some, at?_nil, Option.filter_some]
      split
      · rw [Option.map_some, Option.bind_some, at?_nil]
      · rfl
  | cons name names ih =>
    obtain ⟨hname, hrest⟩ := List.forall_mem_cons.1 hnames
    have hmember : (v.mark marker).member? name
        = ((v.member? name).filter fun v => v.isContainer == true).map (mark marker) :=
      member?_mark h fun _ : true = true => hname
    rw [List.cons_append, List.cons_append, at?_cons, at?_cons, hmember]
    cases hchild : v.member? name with
    | none => rfl
    | some child =>
      rw [Option.bind_some, Option.filter_some]
      cases hkind : child.isContainer with
      | true => exact ih (h.member? hchild).2 hrest
      | false =>
        -- a scalar has nothing below it
        have hnone : child.at? (names ++ [field]) = none := by
          cases child with
          | object members => cases hkind
          | array items => cases hkind
          | _ => cases names <;> rfl
        rw [hnone]
        rfl

/-! ### Merging marked values -/

theorem SameKinds.member? (h : known.SameKinds new) {old fresh : Json}
    (hold : known.member? name = some old) (hfresh : new.member? name = some fresh) :
    old.isContainer = fresh.isContainer ∧ old.SameKinds fresh := by
  constructor
  · refine h [name] (List.cons_ne_nil _ _) old fresh ?_ ?_
    · rw [at?_cons, hold]
      exact at?_nil old
    · rw [at?_cons, hfresh]
      exact at?_nil fresh
  · intro names _ x y hx hy
    refine h (name :: names) (List.cons_ne_nil _ _) x y ?_ ?_
    · rw [at?_cons, hold]
      exact hx
    · rw [at?_cons, hfresh]
      exact hy

theorem ascending_mergeMembers {old : Dict Json} (hold : Dict.Ascending old)
    (policy : ListPolicy) (new : List (String × Json)) :
    Dict.Ascending (mergeMembers policy old new) := by
  induction new generalizing old with
  | nil =>
    rw [mergeMembers_nil]
    exact hold
  | cons entry new ih =>
    obtain ⟨name, value⟩ := entry
    rw [mergeMembers_cons]
    exact ih (Dict.ascending_insert hold name _)

theorem markItems_join (marker : Char) (policy : ListPolicy) (old items : List Json) :
    markItems marker (policy.join old items)
      = policy.join (markItems marker old) (markItems marker items) := by
  cases policy with
  | concat =>
    rw [ListPolicy.join_concat, ListPolicy.join_concat, markItems_eq_map, List.map_append,
      markItems_eq_map, markItems_eq_map]
  | replace => rfl

/-- Lists are not gone into, so joining marked lists is marking joined ones. -/
theorem merge_mark_array (marker : Char) (policy : ListPolicy) (known : Json) (items : List Json) :
    (known.mark marker).merge policy ((array items).mark marker)
      = (known.merge policy (array items)).mark marker := by
  cases harray : known.isArray with
  | true =>
    obtain ⟨old, rfl⟩ := exists_items_of_isArray harray
    rw [mark, mark, merge_array_array, merge_array_array, mark, markItems_join]
  | false =>
    have hmarked : (known.mark marker).isArray = false := by
      cases known with
      | array old => cases harray
      | object members =>
        rw [mark]
        rfl
      | _ =>
        rw [mark_of_scalar marker rfl]
        rfl
    rw [merge_array_of_not_array harray, mark, merge_array_of_not_array hmarked]

/-- What a merged object has under either name of a field, before and after marking, if a field that
both values have is of one kind and its values are told to agree. -/
theorem member?_merge_mark (hknown : known.Plain marker) (hnew : (object members).Plain marker)
    {container : Bool} {field : String}
    (hfield : container = true → unmarked? marker field = none)
    (hsame : ∀ old fresh, known.member? field = some old → Dict.get? members field = some fresh →
      old.isContainer = fresh.isContainer ∧
        (old.mark marker).merge policy (fresh.mark marker) = (old.merge policy fresh).mark marker) :
    ((known.mark marker).merge policy ((object members).mark marker)).member?
        (kindName marker container field)
      = ((known.merge policy (object members)).mark marker).member?
          (kindName marker container field) := by
  have hmarked := member?_mark hnew hfield
  rw [mark, member?_object, member?_object] at hmarked
  rw [mark, member?_merge (Dict.ascending_ofList _), hmarked, member?_mark hknown hfield,
    member?_mark (hknown.merge policy hnew) hfield,
    member?_merge (plain_object_iff.1 hnew).1]
  cases hfresh : Dict.get? members field with
  | none => rfl
  | some fresh =>
    rw [Option.filter_some]
    dsimp only
    by_cases hkind : fresh.isContainer = container
    · rw [if_pos (beq_iff_eq.2 hkind), Option.map_some, Option.filter_some,
        if_pos (beq_iff_eq.2 ((isContainer_merge policy _ fresh).trans hkind)), Option.map_some]
      cases hold : known.member? field with
      | none => simp
      | some old =>
        obtain ⟨hkinds, hmerge⟩ := hsame old fresh hold hfresh
        rw [Option.filter_some, if_pos (beq_iff_eq.2 (hkinds.trans hkind))]
        exact congrArg some hmerge
    · -- the field is under its other name, on both sides
      rw [if_neg fun h => hkind (beq_iff_eq.1 h), Option.map_none, Option.filter_some,
        if_neg fun h => hkind ((isContainer_merge policy _ fresh).symm.trans (beq_iff_eq.1 h))]
      cases hold : known.member? field with
      | none => rfl
      | some old =>
        obtain ⟨hkinds, -⟩ := hsame old fresh hold hfresh
        rw [Option.filter_some, if_neg fun h => hkind (hkinds.symm.trans (beq_iff_eq.1 h))]

/-- The same for all fields together. -/
theorem merge_mark_object (hknown : known.Plain marker) (hnew : (object members).Plain marker)
    (hsame : ∀ field old fresh, known.member? field = some old →
      Dict.get? members field = some fresh → old.isContainer = fresh.isContainer ∧
        (old.mark marker).merge policy (fresh.mark marker) = (old.merge policy fresh).mark marker) :
    (known.mark marker).merge policy ((object members).mark marker)
      = (known.merge policy (object members)).mark marker := by
  by_cases hobject : ∃ old, known = .object old
  · obtain ⟨old, rfl⟩ := hobject
    have hlookup : ∀ name,
        (((object old).mark marker).merge policy ((object members).mark marker)).member? name
          = (((object old).merge policy (object members)).mark marker).member? name := by
      intro name
      obtain ⟨container, field, rfl, hfield⟩ := exists_kindName marker name
      exact member?_merge_mark hknown hnew hfield (hsame field)
    rw [merge_object_object, mark, mark, mark, merge_object_object] at hlookup ⊢
    exact congrArg object (Dict.ext_of_get? (ascending_mergeMembers (Dict.ascending_ofList _) _ _)
      (Dict.ascending_ofList _) hlookup)
  · -- what is no object is replaced, marked or not
    have hmarked : ∀ old, known.mark marker ≠ .object old := by
      cases known with
      | object old => exact absurd ⟨old, rfl⟩ hobject
      | array items =>
        rw [mark]
        nofun
      | _ =>
        rw [mark_of_scalar marker rfl]
        nofun
    rw [merge_object_of_not_object fun old hold => hobject ⟨old, hold⟩, mark,
      merge_object_of_not_object hmarked]

theorem merge_mark_scalar (policy : ListPolicy) (known : Json) (hnew : new.isContainer = false) :
    (known.mark marker).merge policy (new.mark marker) = (known.merge policy new).mark marker := by
  rw [mark_of_scalar marker hnew, merge_of_scalar policy _ hnew, merge_of_scalar policy _ hnew,
    mark_of_scalar marker hnew]

/-- **Merging marked values is marking merged ones**, as long as no field changes its kind. -/
theorem merge_mark_of_sameKinds : ∀ {known new : Json}, known.Plain marker → new.Plain marker →
    known.SameKinds new →
    (known.mark marker).merge policy (new.mark marker) = (known.merge policy new).mark marker
  | known, .object members, hknown, hnew, h => by
    refine merge_mark_object hknown hnew fun field old fresh hold hfresh => ?_
    obtain ⟨hkinds, hbelow⟩ := h.member? hold hfresh
    have := sizeOf_lt_of_get?_eq_some hfresh
    exact ⟨hkinds, merge_mark_of_sameKinds (hknown.member? hold).2 (hnew.member? hfresh).2 hbelow⟩
  | known, .array items, _, _, _ => merge_mark_array marker policy known items
  | known, .null, _, _, _ => merge_mark_scalar policy known rfl
  | known, .bool _, _, _, _ => merge_mark_scalar policy known rfl
  | known, .number _, _, _, _ => merge_mark_scalar policy known rfl
  | known, .string _, _, _, _ => merge_mark_scalar policy known rfl
termination_by _ new => sizeOf new

/-- An object is where it was. -/
theorem at?_mark_object (h : v.Plain marker) (hobject : v.at? names = some (object members)) :
    (v.mark marker).at? names = some ((object members).mark marker) := by
  rcases List.eq_nil_or_concat names with rfl | ⟨init, field, rfl⟩
  · rw [at?_nil] at hobject ⊢
    rw [Option.some.inj hobject]
  · rw [List.concat_eq_append] at hobject ⊢
    obtain ⟨hinit, hfield⟩ := List.forall_mem_append.1 (h.names_unmarked hobject)
    rw [List.forall_mem_singleton] at hfield
    have hmarked : (v.mark marker).at? (init ++ [kindName marker true field]) = _ :=
      at?_mark h hinit hfield
    rw [hobject] at hmarked
    exact hmarked

/-- Beside what an object of the result has, what is known shows. -/
theorem at?_merge_beside (known : Json) (hnew : new.Ordered)
    (hobject : new.at? names = some (object members)) (hnone : Dict.get? members name = none) :
    (known.merge policy new).at? (names ++ [name]) = known.at? (names ++ [name]) := by
  have hmembers : Dict.Ascending members := by
    have hordered := hnew.at? hobject
    rw [Ordered] at hordered
    exact hordered.1
  rw [at?_append, at?_append, at?_merge_of_reached hnew hobject, Option.bind_some, at?_cons,
    member?_merge hmembers, hnone]
  cases known.at? names with
  | none => rfl
  | some value => exact (at?_cons value name []).symm

/-- **What a field that changes its kind leaves under its other name.**  It is the earlier value,
and there is none if the field did not change its kind. -/
theorem at?_merge_mark_other (policy : ListPolicy) (hknown : known.Plain marker)
    (hnew : new.Plain marker) {field : String} {fresh : Json}
    (hfresh : new.at? (names ++ [field]) = some fresh) :
    ((known.mark marker).merge policy (new.mark marker)).at?
        (names ++ [kindName marker (!fresh.isContainer) field])
      = ((known.at? (names ++ [field])).filter fun old => old.isContainer == !fresh.isContainer).map
          (mark marker) := by
  obtain ⟨hnames, hfield⟩ := List.forall_mem_append.1 (hnew.names_unmarked hfresh)
  rw [List.forall_mem_singleton] at hfield
  obtain ⟨members, hmembers⟩ := exists_object_of_at?_append hfresh (List.cons_ne_nil _ _)
  have hplain : (object members).Plain marker := hnew.at? hmembers
  -- under that name the new object has nothing, so the known one shows
  have hother : Dict.get? (Dict.ofList (markMembers marker members))
      (kindName marker (!fresh.isContainer) field) = none := by
    have hget : Dict.get? members field = some fresh := by
      rw [at?_append, hmembers, Option.bind_some] at hfresh
      obtain ⟨_, value, hobject, hvalue, hsame⟩ := exists_member_of_at?_cons hfresh
      rw [at?_nil] at hsame
      cases hobject
      exact hsame ▸ hvalue
    have hmarked : ((object members).mark marker).member?
        (kindName marker (!fresh.isContainer) field) = _ := member?_mark hplain fun _ => hfield
    rw [mark, member?_object, member?_object, hget, Option.filter_some] at hmarked
    rw [hmarked]
    cases fresh.isContainer <;> rfl
  have hobject := at?_mark_object hnew hmembers
  rw [mark] at hobject
  rw [at?_merge_beside _ (ordered_mark marker new) hobject hother]
  exact at?_mark hknown hnames hfield

/-- **Merging marked values is marking merged ones exactly if no field changes its kind.** -/
theorem merge_mark_iff (hknown : known.Plain marker) (hnew : new.Plain marker) :
    (known.mark marker).merge policy (new.mark marker) = (known.merge policy new).mark marker
      ↔ known.SameKinds new := by
  refine ⟨fun hcommutes names hne old fresh hold hfresh => ?_, merge_mark_of_sameKinds hknown hnew⟩
  by_contra hkinds
  obtain ⟨init, field, rfl⟩ := (List.eq_nil_or_concat names).resolve_left hne
  rw [List.concat_eq_append] at hold hfresh
  obtain ⟨hinit, hfield⟩ := List.forall_mem_append.1 (hnew.names_unmarked hfresh)
  rw [List.forall_mem_singleton] at hfield
  have hother : old.isContainer = !fresh.isContainer := by
    cases hkind : fresh.isContainer <;> cases hold' : old.isContainer <;> simp_all
  -- the earlier value is under the other name of the field, but not in the marked merge
  have hstays := at?_merge_mark_other policy hknown hnew hfresh
  rw [hold, Option.filter_some, if_pos (beq_iff_eq.2 hother), Option.map_some, hcommutes,
    at?_mark (hknown.merge policy hnew) hinit hfield, at?_merge_of_reached hnew.ordered hfresh,
    Option.filter_some, isContainer_merge] at hstays
  cases hkind : fresh.isContainer <;> rw [hkind] at hstays <;> cases hstays

end Json

end GraphWalk
