import GraphWalk.Proofs.Json.Equality
import GraphWalk.Proofs.Json.Marking

/-!
# Results that come one after the other

A result that comes a second time overwrites what it has written, so only a list that is
joined to the known one can make a difference.  Two results that share nothing but
objects do not touch what the other has written, so either may come first.

## Main definitions

* `Json.NoItems` — names lead to no list that has items.
* `Json.Independent` — where two values both have something, both have an object.

## Main results

* `Json.merge_merge_self` — a result without items changes nothing when it comes again.
* `Json.merge_merge_comm` — independent results may come in either order.
* `State.absorb_again` — **when a result that comes again is written, and what it adds.**
* `Json.independent_results_commute` — **independent results leave the same behind,
  whichever comes first.**
-/

namespace GraphWalk

namespace Json

variable {policy : ListPolicy} {known new b c v w : Json} {name : String} {names : List String}

/-- Names lead to no list that has items. -/
def NoItems (v : Json) : Prop := ∀ names items, v.at? names = some (.array items) → items = []

/-- Wherever both values have something, both have an object there. -/
def Independent (v w : Json) : Prop :=
  ∀ names x y, v.at? names = some x → w.at? names = some y → x.isObject = true ∧ y.isObject = true

/-! ### Objects told by their members -/

/-- An object with its names in order. -/
def IsTable (v : Json) : Prop := ∃ members, v = .object members ∧ Dict.Ascending members

/-- Objects with the same members are equal. -/
theorem IsTable.ext (hv : v.IsTable) (hw : w.IsTable)
    (h : ∀ name, v.member? name = w.member? name) : v = w := by
  obtain ⟨xs, rfl, hxs⟩ := hv
  obtain ⟨ys, rfl, hys⟩ := hw
  exact congrArg object (Dict.ext_of_get? hxs hys h)

theorem IsTable.merge (h : known.IsTable) (policy : ListPolicy) (new : Dict Json) :
    (known.merge policy (.object new)).IsTable := by
  obtain ⟨old, rfl, hold⟩ := h
  rw [merge_object_object]
  exact ⟨_, rfl, ascending_mergeMembers hold policy new⟩

/-- An object merged into anything leaves an object. -/
theorem Ordered.isTable_merge (hknown : known.Ordered) (policy : ListPolicy) {members : Dict Json}
    (hnew : Dict.Ascending members) : (known.merge policy (.object members)).IsTable := by
  by_cases hobject : ∃ old, known = .object old
  · obtain ⟨old, rfl⟩ := hobject
    rw [Ordered] at hknown
    exact IsTable.merge ⟨old, rfl, hknown.1⟩ policy members
  · rw [merge_object_of_not_object fun old h => hobject ⟨old, h⟩]
    exact ⟨members, rfl, hnew⟩

/-- What is known under a name, `null` if nothing is, is ordered. -/
theorem Ordered.getD_member? (h : v.Ordered) (name : String) :
    ((v.member? name).getD .null).Ordered := by
  cases hmember : v.member? name with
  | none => trivial
  | some child =>
    have hreached : v.at? [name] = some child := by
      rw [at?_cons, hmember]
      exact at?_nil child
    exact h.at? hreached

/-- A value has below a name what lies under the name. -/
theorem at?_of_member? (h : v.member? name = some w) (names : List String) :
    v.at? (name :: names) = w.at? names := by
  rw [at?_cons, h]
  rfl

/-! ### A result that comes again -/

theorem NoItems.member? (h : v.NoItems) (hw : v.member? name = some w) : w.NoItems :=
  fun names items hitems => h (name :: names) items ((at?_of_member? hw names).trans hitems)

/-- A list leaves the merged list as it is if it has no items. -/
theorem merge_merge_array {items : List Json} (h : policy = .replace ∨ items = []) (known : Json) :
    (known.merge policy (.array items)).merge policy (.array items)
      = known.merge policy (.array items) := by
  cases policy with
  | replace => cases known <;> simp [merge]
  | concat =>
    obtain rfl : items = [] := h.resolve_left nofun
    obtain ⟨old, hmerged, -⟩ := exists_items_before .concat known []
    rw [hmerged, merge_array_array, ListPolicy.join_concat, List.append_nil]

/-- **A result without items changes nothing when it comes again**, and no result does where lists
are replaced. -/
theorem merge_merge_self : ∀ {known new : Json}, policy = .replace ∨ new.NoItems →
    known.Ordered → new.Ordered →
    (known.merge policy new).merge policy new = known.merge policy new
  | known, .object members, h, hknown, hnew => by
    have hmembers : Dict.Ascending members := by
      rw [Ordered] at hnew
      exact hnew.1
    have htable := hknown.isTable_merge policy hmembers
    refine (htable.merge policy members).ext htable fun name => ?_
    rw [member?_merge hmembers]
    have hmerged := @member?_merge policy _ hmembers known name
    cases hvalue : Dict.get? members name with
    | none => rfl
    | some value =>
      rw [hvalue] at hmerged
      rw [hmerged]
      have := sizeOf_lt_of_get?_eq_some hvalue
      have hbelow : policy = .replace ∨ value.NoItems := h.imp_right (·.member? hvalue)
      rw [Ordered] at hnew
      exact congrArg some
        (merge_merge_self hbelow (hknown.getD_member? name) (ordered_of_get? hnew.2 hvalue))
  | known, .array items, h, _, _ => merge_merge_array (h.imp_right (· [] items rfl)) known
  | known, .null, _, _, _ => by rw [merge_of_scalar policy _ rfl, merge_of_scalar policy _ rfl]
  | known, .bool _, _, _, _ => by rw [merge_of_scalar policy _ rfl, merge_of_scalar policy _ rfl]
  | known, .number _, _, _, _ => by rw [merge_of_scalar policy _ rfl, merge_of_scalar policy _ rfl]
  | known, .string _, _, _, _ => by rw [merge_of_scalar policy _ rfl, merge_of_scalar policy _ rfl]
termination_by _ new => sizeOf new

/-- A list of the result is behind the known one when lists are joined. -/
theorem at?_merge_concat (hnew : new.Ordered) {old items : List Json}
    (hold : known.at? names = some (.array old)) (hitems : new.at? names = some (.array items)) :
    (known.merge .concat new).at? names = some (.array (old ++ items)) := by
  rw [at?_merge_of_reached hnew hitems, hold, Option.getD_some, merge_array_array]
  rfl

/-- Where the result has a list, there is one when it was merged. -/
theorem exists_list_of_merge (policy : ListPolicy) (known : Json) (hnew : new.Ordered)
    {items : List Json} (hitems : new.at? names = some (.array items)) :
    ∃ old, (known.merge policy new).at? names = some (.array old) := by
  rw [at?_merge_of_reached hnew hitems]
  obtain ⟨old, hmerged, -⟩ := exists_items_before policy ((known.at? names).getD .null) items
  exact ⟨old ++ items, congrArg some hmerged⟩

/-- Joining items to a list makes a difference. -/
theorem not_same_merge_concat (hnew : new.Ordered) {old items : List Json}
    (hold : known.at? names = some (.array old)) (hitems : new.at? names = some (.array items))
    (hne : items ≠ []) : (known.merge .concat new).same known = false := by
  rw [Bool.eq_false_iff]
  intro hsame
  obtain ⟨other, hother, hequal⟩ := exists_at?_of_same hsame (at?_merge_concat hnew hold hitems)
  rw [hold] at hother
  obtain ⟨ys, hys, hlength⟩ := exists_items_of_same (Option.some.inj hother ▸ hequal)
  cases hys
  rw [List.length_append] at hlength
  exact hne (List.length_eq_zero_iff.1 (by omega))

/-! ### Results that share nothing but objects -/

theorem Independent.symm (h : v.Independent w) : w.Independent v :=
  fun names x y hx hy => (h names y x hy hx).symm

theorem Independent.member? (h : v.Independent w) {x y : Json} (hx : v.member? name = some x)
    (hy : w.member? name = some y) : x.Independent y := fun names _ _ hx' hy' =>
  h (name :: names) _ _ ((at?_of_member? hx names).trans hx') ((at?_of_member? hy names).trans hy')

/-- Objects are independent if what both have under a name is. -/
theorem independent_object {xs ys : Dict Json}
    (h : ∀ name x y, Dict.get? xs name = some x → Dict.get? ys name = some y → x.Independent y) :
    (object xs).Independent (object ys) := by
  intro names x y hx hy
  cases names with
  | nil =>
    rw [at?_nil] at hx hy
    exact ⟨Option.some.inj hx ▸ rfl, Option.some.inj hy ▸ rfl⟩
  | cons name names =>
    obtain ⟨_, child, hobject, hchild, hx⟩ := exists_member_of_at?_cons hx
    obtain ⟨_, other, hobject', hother, hy⟩ := exists_member_of_at?_cons hy
    cases hobject
    cases hobject'
    exact h name child other hchild hother names x y hx hy

/-- What two results leave under a name, one merged after the other. -/
theorem member?_merge_merge {xs ys : Dict Json} (hxs : Dict.Ascending xs) (hys : Dict.Ascending ys)
    (known : Json) (name : String) :
    ((known.merge policy (.object xs)).merge policy (.object ys)).member? name
      = match Dict.get? xs name, Dict.get? ys name with
        | some x, some y => some ((((known.member? name).getD .null).merge policy x).merge policy y)
        | some x, none => some (((known.member? name).getD .null).merge policy x)
        | none, some y => some (((known.member? name).getD .null).merge policy y)
        | none, none => known.member? name := by
  have hfirst := @member?_merge policy _ hxs known name
  rw [member?_merge hys, hfirst]
  cases Dict.get? xs name <;> cases Dict.get? ys name <;> rfl

/-- **Independent results may come in either order.** -/
theorem merge_merge_comm {known b c : Json} (hknown : known.Ordered) (hb : b.Ordered)
    (hc : c.Ordered) (h : b.Independent c) :
    (known.merge policy b).merge policy c = (known.merge policy c).merge policy b := by
  obtain ⟨hfirst, hsecond⟩ := h [] b c (at?_nil b) (at?_nil c)
  cases b with
  | object xs =>
    cases c with
    | object ys =>
      rw [Ordered] at hb hc
      refine ((hknown.isTable_merge policy hb.1).merge policy ys).ext
        ((hknown.isTable_merge policy hc.1).merge policy xs) fun name => ?_
      rw [member?_merge_merge hb.1 hc.1, member?_merge_merge hc.1 hb.1]
      cases hx : Dict.get? xs name with
      | none => cases Dict.get? ys name <;> rfl
      | some x =>
        cases hy : Dict.get? ys name with
        | none => rfl
        | some y =>
          have := sizeOf_lt_of_get?_eq_some hx
          exact congrArg some (merge_merge_comm (hknown.getD_member? name)
            (ordered_of_get? hb.2 hx) (ordered_of_get? hc.2 hy) (h.member? hx hy))
    | _ => cases hsecond
  | _ => cases hfirst
termination_by sizeOf b
decreasing_by
  subst_vars
  simp only [Json.object.sizeOf_spec]
  omega

end Json

/-! ### States that take results -/

namespace State

open Json

variable {s : State} {merger : Merger} {result other : Json} {names : List String}
  {items : List Json}

theorem snd_absorb_of_fst_eq_true (h : (s.absorb merger result).1 = true) :
    (s.absorb merger result).2 = s.write (merger.apply s.value result) := by
  rw [absorb_eq, if_pos ((fst_absorb_iff s merger result).1 h)]

/-- What is known after a result equals what merging it leaves. -/
theorem same_value_absorb (s : State) (merger : Merger) (hnull : result.isNull = false) :
    (merger.apply s.value result).same (s.absorb merger result).2.value = true := by
  cases hwritten : (s.absorb merger result).1 with
  | true =>
    rw [snd_absorb_of_fst_eq_true hwritten, value_write, same_self]
  | false =>
    rw [absorb_snd_of_fst_eq_false hwritten]
    by_contra hdiffers
    rw [Bool.not_eq_true] at hdiffers
    rw [(fst_absorb_iff s merger result).2 ⟨hnull, hdiffers⟩] at hwritten
    cases hwritten

/-- What is known after two results equals what merging both leaves. -/
theorem same_value_absorb_absorb (s : State) (merger : Merger) (hresult : result.isNull = false)
    (hother : other.isNull = false) :
    (merger.apply (merger.apply s.value result) other).same
      ((s.absorb merger result).2.absorb merger other).2.value = true :=
  same_trans (same_merge merger.lists (same_value_absorb s merger hresult) _)
    (same_value_absorb _ merger hother)

/-- A result that is stored as a list or an object is not `null`. -/
theorem isNull_of_stored (h : (merger.stored result).isContainer = true) :
    result.isNull = false := by
  cases result with
  | null =>
    rw [Merger.stored] at h
    split at h <;> simp [mark] at h
  | _ => rfl

theorem isNull_of_at? (h : (merger.stored result).at? names = some (.array items)) :
    result.isNull = false := by
  have hcontainer : (merger.stored result).isContainer = true := by
    cases hstored : merger.stored result with
    | array items => rfl
    | object members => rfl
    | _ => rw [hstored] at h; cases names <;> simp at h
  exact isNull_of_stored hcontainer

/-- Where a result has a list, there is one when it was absorbed. -/
theorem exists_list_of_absorb (s : State) (hresult : result.Ordered)
    (hitems : (merger.stored result).at? names = some (.array items)) :
    ∃ old, (s.absorb merger result).2.value.at? names = some (.array old) := by
  obtain ⟨old, hold⟩ :=
    exists_list_of_merge merger.lists s.value (merger.ordered_stored hresult) hitems
  obtain ⟨w, hw, hsame⟩ :=
    exists_at?_of_same (same_value_absorb s merger (isNull_of_at? hitems)) hold
  obtain ⟨ys, rfl, -⟩ := exists_items_of_same hsame
  exact ⟨ys, hw⟩

/-- A result is not written a second time if it adds nothing to a list. -/
theorem fst_absorb_again_of_noItems (hs : s.value.Ordered) (hresult : result.Ordered)
    (h : merger.lists = .replace ∨ (merger.stored result).NoItems) :
    ((s.absorb merger result).2.absorb merger result).1 = false := by
  cases hwritten : (s.absorb merger result).1 with
  | false => rw [absorb_snd_of_fst_eq_false hwritten, hwritten]
  | true =>
    have hmerged : merger.apply (merger.apply s.value result) result
        = merger.apply s.value result :=
      merge_merge_self h hs (merger.ordered_stored hresult)
    rw [snd_absorb_of_fst_eq_true hwritten, Bool.eq_false_iff, Ne, fst_absorb_iff, value_write,
      hmerged, same_self]
    exact fun hdiffers => Bool.false_ne_true hdiffers.2.symm

/-- **When a result that comes again is written, and what it adds.**  It is not written exactly if
lists are replaced or names lead to no list with items in it, and then the state is left as it was
and nobody who watches it is woken.  Otherwise those who watch are woken once, and every list of the
result that names lead to is added to the known one again. -/
theorem absorb_again (s : State) (merger : Merger) (hs : s.value.Ordered)
    (hresult : result.Ordered) :
    let first := (s.absorb merger result).2
    let again := first.absorb merger result
    (again.1 = false ↔ merger.lists = .replace ∨ (merger.stored result).NoItems) ∧
    (again.1 = false → again.2 = first) ∧
    first.subscribe.hasChanged again.2 = again.1 ∧
    (again.1 = true → again.2.version = first.version + 1 ∧ again.2.wakings = first.wakings + 1 ∧
      ∀ names items, (merger.stored result).at? names = some (.array items) →
        ∃ old, first.value.at? names = some (.array old) ∧
          again.2.value.at? names = some (.array (old ++ items))) := by
  intro first again
  have hstored : (merger.stored result).Ordered := merger.ordered_stored hresult
  have hconcat : merger.lists ≠ .replace → merger.lists = .concat := by
    cases merger.lists <;> simp
  have hiff : again.1 = false ↔ merger.lists = .replace ∨ (merger.stored result).NoItems := by
    refine ⟨fun hidle => ?_, fst_absorb_again_of_noItems hs hresult⟩
    by_contra hadds
    obtain ⟨hlists, hitems⟩ := not_or.1 hadds
    simp only [NoItems, not_forall] at hitems
    obtain ⟨names, items, hitems, hne⟩ := hitems
    obtain ⟨old, hold⟩ := exists_list_of_absorb s hresult hitems
    have hwritten : again.1 = true := by
      rw [fst_absorb_iff, Merger.apply, hconcat hlists]
      exact ⟨isNull_of_at? hitems, not_same_merge_concat hstored hold hitems hne⟩
    rw [hidle] at hwritten
    cases hwritten
  refine ⟨hiff, absorb_snd_of_fst_eq_false, hasChanged_absorb first merger result,
    fun hwritten => ⟨?_, ?_, fun names items hitems => ?_⟩⟩
  · rw [version_absorb, if_pos hwritten]
  · rw [wakings_absorb, if_pos hwritten]
  · have hlists : merger.lists ≠ .replace := by
      intro hreplace
      rw [hiff.2 (.inl hreplace)] at hwritten
      cases hwritten
    obtain ⟨old, hold⟩ := exists_list_of_absorb s hresult hitems
    refine ⟨old, hold, ?_⟩
    rw [snd_absorb_of_fst_eq_true hwritten, value_write, Merger.apply, hconcat hlists]
    exact at?_merge_concat hstored hold hitems

/-- A result with a tag that comes again adds the tag again, and wakes those who watch. -/
theorem absorb_again_tags :
    let s : State :=
      { value := .object [("item", .object [("tags", .array [.string "old"])])], version := 1 }
    let merger : Merger := { marker := some '$' }
    let result : Json := .object
      [("item", .object [("id", .number (.int 5)), ("tags", .array [.string "new"])])]
    let first := (s.absorb merger result).2
    (first.absorb merger result).1 = true ∧
      first.subscribe.hasChanged (first.absorb merger result).2 = true ∧
      ∃ old, first.value.at? ["item", "tags"] = some (.array old) ∧
        (first.absorb merger result).2.value.at? ["item", "tags"]
          = some (.array (old ++ [.string "new"])) := by
  intro s merger result first
  have hs : s.value.Ordered :=
    ⟨List.pairwise_singleton _ _, ⟨List.pairwise_singleton _ _, ⟨trivial, trivial⟩, trivial⟩,
      trivial⟩
  have hfields : Dict.Ascending
      [("id", Json.number (.int 5)), ("tags", .array [.string "new"])] := by
    refine List.pairwise_cons.2 ⟨fun entry hentry => ?_, List.pairwise_singleton _ _⟩
    rw [List.mem_singleton.1 hentry]
    decide
  have hresult : result.Ordered :=
    ⟨List.pairwise_singleton _ _, ⟨hfields, trivial, ⟨trivial, trivial⟩, trivial⟩, trivial⟩
  have htags : (merger.stored result).at? ["item", "tags"] = some (.array [.string "new"]) := rfl
  obtain ⟨hidle, -, htold, hadds⟩ := absorb_again s merger hs hresult
  have hwritten : (first.absorb merger result).1 = true := by
    rw [← Bool.not_eq_false, hidle]
    rintro (hlists | hitems)
    · cases hlists
    · exact List.cons_ne_nil _ _ (hitems _ _ htags)
  exact ⟨hwritten, htold.trans hwritten, (hadds hwritten).2.2 _ _ htags⟩

end State

/-- **Independent results leave the same behind, whichever comes first.**  So do two answers that
are stored as such results. -/
theorem Json.independent_results_commute (policy : ListPolicy) {known b c : Json}
    (hknown : known.Ordered) (hb : b.Ordered) (hc : c.Ordered) (h : b.Independent c) :
    (known.merge policy b).merge policy c = (known.merge policy c).merge policy b ∧
    ∀ (s : State) (merger : Merger) (result other : Json), s.value = known →
      merger.lists = policy → merger.stored result = b → merger.stored other = c →
        ((s.absorb merger result).2.absorb merger other).2.value.same
          ((s.absorb merger other).2.absorb merger result).2.value = true := by
  have hcomm := @merge_merge_comm policy _ _ _ hknown hb hc h
  refine ⟨hcomm, ?_⟩
  rintro s merger result other rfl rfl rfl rfl
  have hcontainer : ∀ v : Json, v.isObject = true → v.isContainer = true := by
    intro v hv
    rw [isContainer, hv, Bool.or_true]
  obtain ⟨hfirst, hsecond⟩ := h [] _ _ (at?_nil _) (at?_nil _)
  have hresult := State.isNull_of_stored (hcontainer _ hfirst)
  have hother := State.isNull_of_stored (hcontainer _ hsecond)
  have hone := State.same_value_absorb_absorb s merger hresult hother
  have htwo := State.same_value_absorb_absorb s merger hother hresult
  rw [Merger.apply, Merger.apply, hcomm, same_comm] at hone
  exact same_trans hone htwo

/-- Two results with different fields of an item, where a number was known instead of an item. -/
theorem Json.independent_results_commute_item :
    let known : Json := .object [("item", .number (.int 3))]
    let b : Json := .object [("item", .object [("name", .string "five")])]
    let c : Json := .object [("item", .object [("tags", .array [.string "new"])])]
    b.Independent c ∧
      (known.merge .concat b).merge .concat c = (known.merge .concat c).merge .concat b := by
  intro known b c
  have hordered : ∀ name v, v.Ordered → (Json.object [(name, v)]).Ordered := fun name v hv =>
    ⟨List.pairwise_singleton _ _, hv, trivial⟩
  have hindependent : b.Independent c := by
    refine Json.independent_object fun name x y hx hy => ?_
    obtain ⟨-, rfl⟩ : name = "item" ∧ _ = x := by simpa using hx
    obtain ⟨-, rfl⟩ : name = "item" ∧ _ = y := by simpa using hy
    refine Json.independent_object fun field x y hx hy => ?_
    simp only [Dict.get?_cons, Dict.get?_nil] at hx hy
    split at hx <;> split at hy <;> simp_all
  have hknown : known.Ordered := hordered _ _ trivial
  have hb : b.Ordered := hordered _ _ (hordered _ _ trivial)
  have hc : c.Ordered := hordered _ _ (hordered _ _ ⟨trivial, trivial⟩)
  exact ⟨hindependent,
    (Json.independent_results_commute .concat hknown hb hc hindependent).1⟩

end GraphWalk
