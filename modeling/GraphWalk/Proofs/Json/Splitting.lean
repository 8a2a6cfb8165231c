import Mathlib.Data.Fintype.EquivFin
import GraphWalk.Proofs.Json.Successive

/-!
# Results that come in two parts

A result may come in one batch or in two.  Merging the parts one after the other leaves
the same as merging them first, unless the second part begins anew where the first one
has something: it starts an object where there is none, or a list that is then joined
to a list that the first part had overwritten.

## Main definitions

* `Json.SameForms` — where two values both have something, both have an object, both a list, or
  neither has.
* `Json.Continues` — the second value has an object only where the first one has none but an object,
  and likewise a list when lists are joined.

## Main results

* `Json.merge_assoc`, `Json.merge_assoc_iff` — **when merging is associative.**
* `Json.SameForms.mark` — marking keeps the forms.
* `Json.merge_in_parts` — **a result that comes in two parts of the same forms leaves what the
  whole result leaves.**
-/

namespace GraphWalk

/-- There is a name under which a dictionary has nothing. -/
theorem Dict.exists_fresh {α : Type*} (d : Dict α) : ∃ name, Dict.get? d name = none := by
  obtain ⟨name, hname⟩ := Infinite.exists_notMem_finset (Dict.keys d).toFinset
  refine ⟨name, Dict.get?_eq_none_iff.2 ?_⟩
  simpa using hname

namespace Json

/-- A relation that holds wherever both values have something. -/
def WhereBoth (r : Json → Json → Prop) (v w : Json) : Prop :=
  ∀ names x y, v.at? names = some x → w.at? names = some y → r x y

/-- Wherever both values have something, both have an object, both a list, or neither has. -/
def SameForms : Json → Json → Prop :=
  WhereBoth fun x y => x.isObject = y.isObject ∧ x.isArray = y.isArray

/-- Where the second value has an object and the first one something, that is an object; and so for
lists when they are joined. -/
def Continues (policy : ListPolicy) : Json → Json → Prop :=
  WhereBoth fun x y => (y.isObject = true → x.isObject = true) ∧
    (policy = .concat → y.isArray = true → x.isArray = true)

variable {policy : ListPolicy} {marker : Char} {known a b v w x y : Json} {name : String}
  {names : List String} {r : Json → Json → Prop}

/-- Only an object has members. -/
theorem exists_members_of_member? (h : v.member? name = some w) :
    ∃ members, v = .object members := by
  cases v with
  | object members => exact ⟨members, rfl⟩
  | _ => cases h

theorem WhereBoth.root (h : WhereBoth r v w) : r v w := h [] v w (at?_nil v) (at?_nil w)

theorem WhereBoth.member? (h : WhereBoth r v w) (hx : v.member? name = some x)
    (hy : w.member? name = some y) : WhereBoth r x y := by
  intro names x' y' hx' hy'
  exact h (name :: names) x' y' ((at?_of_member? hx names).trans hx')
    ((at?_of_member? hy names).trans hy')

/-- A relation holds wherever both values have something if it holds of the values, and wherever
both have something below a name that they share. -/
theorem whereBoth_of_member? (hroot : r v w)
    (h : ∀ name x y, v.member? name = some x → w.member? name = some y → WhereBoth r x y) :
    WhereBoth r v w := by
  intro names x y hx hy
  cases names with
  | nil =>
    rw [at?_nil] at hx hy
    rw [← Option.some.inj hx, ← Option.some.inj hy]
    exact hroot
  | cons name names =>
    rw [at?_cons, Option.bind_eq_some_iff] at hx hy
    obtain ⟨child, hchild, hx⟩ := hx
    obtain ⟨other, hother, hy⟩ := hy
    exact h name child other hchild hother names x y hx hy

theorem SameForms.continues (h : a.SameForms b) (policy : ListPolicy) : Continues policy a b := by
  intro names x y hx hy
  obtain ⟨hobject, harray⟩ := h names x y hx hy
  rw [hobject, harray]
  exact ⟨id, fun _ => id⟩

theorem SameForms.sameKinds (h : a.SameForms b) : a.SameKinds b := by
  intro names _ x y hx hy
  obtain ⟨hobject, harray⟩ := h names x y hx hy
  rw [isContainer, isContainer, hobject, harray]

/-! ### Merging in two steps -/

/-- What is no object replaces an object. -/
theorem object_merge_of_not_object (policy : ListPolicy) (members : Dict Json)
    (hv : v.isObject = false) : (object members).merge policy v = v := by
  cases v with
  | object _ => cases hv
  | _ => simp [merge]

/-- What is no list replaces a list. -/
theorem array_merge_of_not_array (policy : ListPolicy) (items : List Json)
    (hv : v.isArray = false) : (array items).merge policy v = v := by
  cases v with
  | array _ => cases hv
  | _ => simp [merge]

/-- What two results leave under a name when they are merged first. -/
theorem member?_merge_mergeMembers {xs ys : Dict Json} (hxs : Dict.Ascending xs)
    (hys : Dict.Ascending ys) (known : Json) (name : String) :
    (known.merge policy (.object (mergeMembers policy xs ys))).member? name
      = match Dict.get? xs name, Dict.get? ys name with
        | some x, some y => some (((known.member? name).getD .null).merge policy (x.merge policy y))
        | some x, none => some (((known.member? name).getD .null).merge policy x)
        | none, some y => some (((known.member? name).getD .null).merge policy y)
        | none, none => known.member? name := by
  rw [member?_merge (ascending_mergeMembers hxs policy ys), get?_mergeMembers hys]
  cases Dict.get? xs name <;> cases Dict.get? ys name <;> rfl

/-- A list that goes on with a list may be joined to it first. -/
theorem merge_assoc_array {items : List Json} (h : policy = .concat → a.isArray = true)
    (known : Json) :
    (known.merge policy a).merge policy (.array items)
      = known.merge policy (a.merge policy (.array items)) := by
  cases policy with
  | replace =>
    have hreplace : ∀ old : Json, old.merge .replace (.array items) = .array items := by
      intro old
      cases old <;> simp [merge]
    simp only [hreplace]
  | concat =>
    obtain ⟨old, rfl⟩ := exists_items_of_isArray (h rfl)
    cases hknown : known.isArray with
    | true =>
      obtain ⟨first, rfl⟩ := exists_items_of_isArray hknown
      simp [List.append_assoc]
    | false => simp [merge_array_of_not_array hknown]

/-- A scalar overwrites whatever there is. -/
theorem merge_assoc_scalar (hb : b.isContainer = false) (known a : Json) :
    (known.merge policy a).merge policy b = known.merge policy (a.merge policy b) := by
  simp only [merge_of_scalar policy _ hb]

/-- **Merging is associative** when the second result continues the first one. -/
theorem merge_assoc {known a b : Json} (hknown : known.Ordered) (ha : a.Ordered) (hb : b.Ordered)
    (h : Continues policy a b) :
    (known.merge policy a).merge policy b = known.merge policy (a.merge policy b) := by
  obtain ⟨hobject, harray⟩ := h.root
  cases b with
  | array items => exact merge_assoc_array (fun hconcat => harray hconcat rfl) known
  | object ys =>
    obtain ⟨xs, rfl⟩ := exists_members_of_isObject (hobject rfl)
    rw [Ordered] at ha hb
    have hmerged : Dict.Ascending (mergeMembers policy xs ys) :=
      ascending_mergeMembers ha.1 policy ys
    rw [merge_object_object]
    refine ((hknown.isTable_merge policy ha.1).merge policy ys).ext
      (hknown.isTable_merge policy hmerged) fun name => ?_
    rw [member?_merge_merge ha.1 hb.1, member?_merge_mergeMembers ha.1 hb.1]
    cases hx : Dict.get? xs name with
    | none => cases Dict.get? ys name <;> rfl
    | some x =>
      cases hy : Dict.get? ys name with
      | none => rfl
      | some y =>
        have := sizeOf_lt_of_get?_eq_some hy
        exact congrArg some (merge_assoc (hknown.getD_member? name) (ordered_of_get? ha.2 hx)
          (ordered_of_get? hb.2 hy) (h.member? hx hy))
  | null => exact merge_assoc_scalar rfl known a
  | bool _ => exact merge_assoc_scalar rfl known a
  | number _ => exact merge_assoc_scalar rfl known a
  | string _ => exact merge_assoc_scalar rfl known a
termination_by sizeOf b
decreasing_by
  subst_vars
  simp only [Json.object.sizeOf_spec]
  omega

/-! ### What goes wrong otherwise -/

/-- What both results have under a name may be merged first if that is so of the results. -/
theorem assoc_member (ha : a.Ordered) (hb : b.Ordered) (hx : a.member? name = some x)
    (hy : b.member? name = some y)
    (h : ∀ known : Json, known.Ordered →
      (known.merge policy a).merge policy b = known.merge policy (a.merge policy b))
    (known : Json) (hknown : known.Ordered) :
    (known.merge policy x).merge policy y = known.merge policy (x.merge policy y) := by
  obtain ⟨xs, rfl⟩ := exists_members_of_member? hx
  obtain ⟨ys, rfl⟩ := exists_members_of_member? hy
  rw [member?_object] at hx hy
  rw [Ordered] at ha hb
  have houter : (object [(name, known)]).Ordered :=
    ⟨List.pairwise_singleton _ _, hknown, trivial⟩
  have hmember := congrArg (Json.member? · name) (h _ houter)
  simp only [member?_merge_merge ha.1 hb.1, merge_object_object policy xs ys,
    member?_merge_mergeMembers ha.1 hb.1, hx, hy] at hmember
  simpa using hmember

/-- Something in the place of an object is followed by an object, or in the place of a list by a
list: then it makes a difference whether it is known already. -/
theorem forms_of_assoc (hb : b.Ordered)
    (h : ∀ known : Json, known.Ordered →
      (known.merge policy a).merge policy b = known.merge policy (a.merge policy b)) :
    (b.isObject = true → a.isObject = true) ∧
      (policy = .concat → b.isArray = true → a.isArray = true) := by
  constructor
  · intro hobject
    by_contra hother
    rw [Bool.not_eq_true] at hother
    obtain ⟨ys, rfl⟩ := exists_members_of_isObject hobject
    obtain ⟨name, hfresh⟩ := Dict.exists_fresh ys
    rw [Ordered] at hb
    -- a member that neither result has stays only if the results are merged first
    have hknown : (object [(name, null)]).Ordered :=
      ⟨List.pairwise_singleton _ _, trivial, trivial⟩
    have hreplaced : a.merge policy (.object ys) = .object ys := by
      refine merge_object_of_not_object ?_ ys
      rintro members rfl
      cases hother
    have hmember := congrArg (Json.member? · name) (h _ hknown)
    simp [object_merge_of_not_object policy _ hother, hreplaced, get?_mergeMembers hb.1,
      hfresh] at hmember
  · rintro rfl harray
    by_contra hother
    rw [Bool.not_eq_true] at hother
    obtain ⟨items, rfl⟩ := exists_items_of_isArray harray
    -- an item that neither result has stays only if the results are merged first
    have hitems := h (.array [.null]) ⟨trivial, trivial⟩
    rw [array_merge_of_not_array .concat _ hother, merge_array_of_not_array hother,
      merge_array_array, ListPolicy.join_concat] at hitems
    simpa using congrArg List.length (Json.array.inj hitems)

/-- **When merging is associative**, whatever is known: exactly if the second result continues the
first one. -/
theorem merge_assoc_iff (ha : a.Ordered) (hb : b.Ordered) :
    (∀ known : Json, known.Ordered →
      (known.merge policy a).merge policy b = known.merge policy (a.merge policy b))
      ↔ Continues policy a b := by
  constructor
  · intro h names x y hx hy
    induction names generalizing a b with
    | nil =>
      rw [at?_nil] at hx hy
      rw [← Option.some.inj hx, ← Option.some.inj hy]
      exact forms_of_assoc hb h
    | cons name names ih =>
      obtain ⟨xs, child, rfl, hchild, hx⟩ := exists_member_of_at?_cons hx
      obtain ⟨ys, other, rfl, hother, hy⟩ := exists_member_of_at?_cons hy
      have hbelow := assoc_member ha hb hchild hother h
      rw [Ordered] at ha hb
      exact ih (ordered_of_get? ha.2 hchild) (ordered_of_get? hb.2 hother) hbelow hx hy
  · intro h known hknown
    exact merge_assoc hknown ha hb h

/-! ### Parts that are marked -/

@[simp] theorem isObject_mark (marker : Char) (v : Json) :
    (v.mark marker).isObject = v.isObject := by
  cases v <;> simp [mark, isObject]

@[simp] theorem isArray_mark (marker : Char) (v : Json) : (v.mark marker).isArray = v.isArray := by
  cases v <;> simp [mark, isArray]

/-- What a marked value has under a name is a marked value, which the value has under the field of
that name. -/
theorem exists_of_member?_mark (h : v.Plain marker) {container : Bool} {field : String}
    (hfield : container = true → unmarked? marker field = none)
    (hw : (v.mark marker).member? (kindName marker container field) = some w) :
    ∃ child, v.member? field = some child ∧ child.mark marker = w := by
  rw [member?_mark h hfield, Option.map_eq_some_iff] at hw
  obtain ⟨child, hchild, hmarked⟩ := hw
  exact ⟨child, (Option.filter_eq_some_iff.1 hchild).1, hmarked⟩

/-- Marking keeps the forms. -/
theorem SameForms.mark (ha : a.Plain marker) (hb : b.Plain marker) (h : a.SameForms b) :
    (a.mark marker).SameForms (b.mark marker) := by
  intro names x y hx hy
  induction names generalizing a b with
  | nil =>
    rw [at?_nil] at hx hy
    rw [← Option.some.inj hx, ← Option.some.inj hy]
    simpa using h.root
  | cons name names ih =>
    obtain ⟨container, field, rfl, hfield⟩ := exists_kindName marker name
    rw [at?_cons, Option.bind_eq_some_iff] at hx hy
    obtain ⟨x', hx', hx⟩ := hx
    obtain ⟨y', hy', hy⟩ := hy
    obtain ⟨child, hchild, rfl⟩ := exists_of_member?_mark ha hfield hx'
    obtain ⟨other, hother, rfl⟩ := exists_of_member?_mark hb hfield hy'
    exact ih (ha.member? hchild).2 (hb.member? hother).2 (h.member? hchild hother) hx hy

end Json

/-! ### States that take the parts -/

namespace Merger

open Json

variable {merger : Merger} {a b : Json}

/-- A result of which no name begins with the marker, if there is one. -/
def Fits (merger : Merger) (result : Json) : Prop :=
  ∀ marker, merger.marker = some marker → result.Unmarked marker

/-- The parts of a result are stored as parts of what the result is stored as. -/
theorem stored_merge (ha : a.Ordered) (hb : b.Ordered) (hfits : merger.Fits a)
    (hfits' : merger.Fits b) (h : a.SameForms b) :
    (merger.stored a).SameForms (merger.stored b) ∧
      (merger.stored a).merge merger.lists (merger.stored b)
        = merger.stored (a.merge merger.lists b) := by
  unfold stored
  cases hmarker : merger.marker with
  | none => exact ⟨h, rfl⟩
  | some marker =>
    have hplain : a.Plain marker := ⟨ha, hfits marker hmarker⟩
    have hplain' : b.Plain marker := ⟨hb, hfits' marker hmarker⟩
    exact ⟨h.mark hplain hplain', merge_mark_of_sameKinds hplain hplain' h.sameKinds⟩

end Merger

/-- Only `null` leaves `null`. -/
theorem Json.isNull_merge (policy : ListPolicy) (known new : Json) :
    (known.merge policy new).isNull = new.isNull := by
  cases new with
  | object members => cases known <;> simp [merge, isNull]
  | array items => cases known <;> simp [merge, isNull]
  | _ => rw [merge_of_scalar policy known rfl]

/-- **A result that comes in two parts of the same forms leaves what the whole result leaves.**  So
do two answers that are no `null`, with or without a marker. -/
theorem Json.merge_in_parts (policy : ListPolicy) {known a b : Json} (hknown : known.Ordered)
    (ha : a.Ordered) (hb : b.Ordered) (h : a.SameForms b) :
    (known.merge policy a).merge policy b = known.merge policy (a.merge policy b) ∧
    ∀ (s : State) (merger : Merger), s.value = known → merger.lists = policy → merger.Fits a →
      merger.Fits b → a.isNull = false → b.isNull = false →
        ((s.absorb merger a).2.absorb merger b).2.value.same
          (s.absorb merger (a.merge policy b)).2.value = true := by
  refine ⟨merge_assoc hknown ha hb (h.continues policy), ?_⟩
  rintro s merger rfl rfl hfits hfits' hanull hbnull
  obtain ⟨hforms, hstored⟩ := merger.stored_merge ha hb hfits hfits' h
  have hwhole : (a.merge merger.lists b).isNull = false := by
    rw [isNull_merge]
    exact hbnull
  have hparts := State.same_value_absorb_absorb s merger hanull hbnull
  have honce := State.same_value_absorb s merger hwhole
  rw [Merger.apply, ← hstored,
    ← merge_assoc hknown (merger.ordered_stored ha) (merger.ordered_stored hb)
      (hforms.continues merger.lists)] at honce
  rw [Merger.apply, Merger.apply, same_comm] at hparts
  exact same_trans hparts honce

/-- The tags and the title of an item come apart, where a number was known instead of an item. -/
theorem Json.merge_in_parts_item :
    let known : Json := .object [("item", .number (.int 3))]
    let a : Json := .object [("item", .object [("tags", .array [.string "new"])])]
    let b : Json := .object
      [("item", .object [("tags", .array [.string "last"]), ("title", .string "five")])]
    let s : State := { value := known, version := 1 }
    let merger : Merger := { marker := some '$' }
    a.SameForms b ∧
      (known.merge .concat a).merge .concat b = known.merge .concat (a.merge .concat b) ∧
      ((s.absorb merger a).2.absorb merger b).2.value.same
        (s.absorb merger (a.merge .concat b)).2.value = true := by
  intro known a b s merger
  have hordered : ∀ name v, v.Ordered → (Json.object [(name, v)]).Ordered := fun name v hv =>
    ⟨List.pairwise_singleton _ _, hv, trivial⟩
  have hfields : Dict.Ascending
      [("tags", Json.array [.string "last"]), ("title", .string "five")] := by
    refine List.pairwise_cons.2 ⟨fun entry hentry => ?_, List.pairwise_singleton _ _⟩
    rw [List.mem_singleton.1 hentry]
    decide
  have hknown : known.Ordered := hordered _ _ trivial
  have ha : a.Ordered := hordered _ _ (hordered _ _ ⟨trivial, trivial⟩)
  have hb : b.Ordered := hordered _ _ ⟨hfields, ⟨trivial, trivial⟩, trivial, trivial⟩
  have hforms : a.SameForms b := by
    refine Json.whereBoth_of_member? ⟨rfl, rfl⟩ fun name x y hx hy => ?_
    obtain ⟨-, rfl⟩ : name = "item" ∧ _ = x := by simpa [a] using hx
    obtain ⟨-, rfl⟩ : name = "item" ∧ _ = y := by simpa [b] using hy
    refine Json.whereBoth_of_member? ⟨rfl, rfl⟩ fun field x y hx hy => ?_
    obtain ⟨rfl, rfl⟩ : field = "tags" ∧ _ = x := by simpa using hx
    obtain rfl : _ = y := by simpa using hy
    exact Json.whereBoth_of_member? ⟨rfl, rfl⟩ nofun
  have hfits : merger.Fits a := by
    rintro _ ⟨⟩
    exact ⟨rfl, ⟨rfl, ⟨trivial, trivial⟩, trivial⟩, trivial⟩
  have hfits' : merger.Fits b := by
    rintro _ ⟨⟩
    exact ⟨rfl, ⟨rfl, ⟨trivial, trivial⟩, rfl, trivial, trivial⟩, trivial⟩
  obtain ⟨hmerged, hstates⟩ := Json.merge_in_parts .concat hknown ha hb hforms
  exact ⟨hforms, hmerged, hstates s merger rfl rfl hfits hfits' rfl rfl⟩

end GraphWalk
