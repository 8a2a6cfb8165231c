import Mathlib.Data.List.Nodup
import Mathlib.Data.List.Perm.Subperm
import GraphWalk.Dict

/-!
# The entries of a dictionary

A dictionary is told by its look-ups: two dictionaries in order with the same look-ups
have the same entries.  Of several collected entries for one name the last one is found.

## Main results

* `Dict.get?_ofList` — the last entry of a name is found.
* `Dict.get?_ofList_of_nodup` — among entries of different names each is found.
* `Dict.ext_of_get?` — **the same look-ups, the same entries.**
* `Dict.perm_ofList`, `Dict.ofList_eq_of_perm` — entries of different names are all collected, in
  whatever order they come.
* `Dict.nodup_keys_of_length_le` — if no entry is lost, no two have the same name.
-/

namespace GraphWalk

namespace Dict

universe u

variable {α : Type u} {d e : Dict α} {key : String} {value : α}

theorem get?_append (d e : Dict α) (key : String) :
    get? (d ++ e) key = (get? d key).or (get? e key) := by
  induction d with
  | nil => rfl
  | cons entry d ih =>
    obtain ⟨name, first⟩ := entry
    rw [List.cons_append, get?_cons, get?_cons, ih]
    split <;> rfl

/-- The last entry of a name is found among those that are collected, before any that was there. -/
theorem get?_foldl_insert (entries : List (String × α)) (d : Dict α) (key : String) :
    get? (entries.foldl (fun d entry => insert d entry.1 entry.2) d) key
      = (get? entries.reverse key).or (get? d key) := by
  induction entries generalizing d with
  | nil => rfl
  | cons entry entries ih =>
    obtain ⟨name, first⟩ := entry
    rw [List.foldl_cons, ih, get?_insert, List.reverse_cons, get?_append, Option.or_assoc,
      get?_cons]
    split <;> rfl

/-- What is found after some values were put in was there before, or was put in. -/
theorem exists_of_get?_foldl_insert {β : Type*} {name : β → String} {put : Dict α → β → α}
    {items : List β} (h : get? (items.foldl (fun d item => insert d (name item) (put d item)) d) key
      = some value) :
    (∃ item ∈ items, name item = key) ∨ get? d key = some value := by
  induction items generalizing d with
  | nil => exact .inr h
  | cons first items ih =>
    rcases ih h with ⟨item, hitem, hname⟩ | h
    · exact .inl ⟨item, List.mem_cons_of_mem _ hitem, hname⟩
    · rw [get?_insert] at h
      split at h
      · next heq => exact .inl ⟨first, List.mem_cons_self, heq.symm⟩
      · exact .inr h

/-- What holds of all values, and of every value that is put in when it holds of those before it,
holds of all values in the end. -/
theorem forall_get?_foldl_insert {β : Type*} {name : β → String} {put : Dict α → β → α}
    {p : α → Prop} (hput : ∀ d item, (∀ key value, get? d key = some value → p value) →
      p (put d item)) (items : List β) (hd : ∀ key value, get? d key = some value → p value) :
    ∀ key value, get? (items.foldl (fun d item => insert d (name item) (put d item)) d) key
      = some value → p value := by
  induction items generalizing d with
  | nil => exact hd
  | cons first items ih =>
    apply ih
    intro key value hget
    rw [get?_insert] at hget
    split at hget
    · rw [← Option.some.inj hget]
      exact hput d first hd
    · exact hd key value hget

/-- **The last entry of a name is found.** -/
theorem get?_ofList (entries : List (String × α)) (key : String) :
    get? (ofList entries) key = get? entries.reverse key := by
  rw [ofList, get?_foldl_insert]
  exact Option.or_none

/-- What is collected later is found before what was collected earlier. -/
theorem get?_ofList_append (earlier later : List (String × α)) (key : String) :
    get? (ofList (earlier ++ later)) key
      = (get? (ofList later) key).or (get? (ofList earlier) key) := by
  rw [get?_ofList, get?_ofList, get?_ofList, List.reverse_append, get?_append]

/-- Nothing is found under a name exactly if no entry has it. -/
theorem get?_ofList_eq_none_iff {entries : List (String × α)} :
    get? (ofList entries) key = none ↔ key ∉ keys entries := by
  rw [get?_ofList, get?_eq_none_iff, keys, keys, List.map_reverse, List.mem_reverse]

/-- What is found among collected entries is one of them. -/
theorem mem_of_get?_ofList {entries : List (String × α)}
    (h : get? (ofList entries) key = some value) : (key, value) ∈ entries := by
  rw [get?_ofList] at h
  exact List.mem_reverse.1 (mem_of_get?_eq_some h)

/-- Among entries of different names each is found. -/
theorem get?_eq_some_of_mem (hnodup : (keys d).Nodup) (h : (key, value) ∈ d) :
    get? d key = some value := by
  induction d with
  | nil => cases h
  | cons entry d ih =>
    obtain ⟨name, first⟩ := entry
    rw [keys_cons, List.nodup_cons] at hnodup
    rw [get?_cons]
    rcases List.mem_cons.1 h with heq | hrest
    · cases heq
      exact if_pos rfl
    · rw [if_neg, ih hnodup.2 hrest]
      rintro rfl
      exact hnodup.1 (List.mem_map.2 ⟨_, hrest, rfl⟩)

theorem get?_reverse (hnodup : (keys d).Nodup) (key : String) :
    get? d.reverse key = get? d key := by
  have hkeys : keys d.reverse = (keys d).reverse := List.map_reverse
  cases hget : get? d key with
  | none =>
    rw [get?_eq_none_iff] at hget ⊢
    rw [hkeys, List.mem_reverse]
    exact hget
  | some value =>
    refine get?_eq_some_of_mem ?_ (List.mem_reverse.2 (mem_of_get?_eq_some hget))
    rw [hkeys]
    exact List.nodup_reverse.2 hnodup

/-- Entries of different names are collected as they are found. -/
theorem get?_ofList_of_nodup (hnodup : (keys d).Nodup) (key : String) :
    get? (ofList d) key = get? d key :=
  (get?_ofList d key).trans (get?_reverse hnodup key)

/-! ### Names in order -/

/-- The first name comes before whatever else is found. -/
theorem le_of_get?_eq_some {name : String} {first : α} (h : Ascending ((name, first) :: d))
    (hget : get? ((name, first) :: d) key = some value) : name ≤ key := by
  rcases List.mem_cons.1 (mem_of_get?_eq_some hget) with heq | hrest
  · cases heq
    exact String.le_refl _
  · exact Std.le_of_lt ((List.pairwise_cons.1 h).1 _ hrest)

/-- Names in order are different names. -/
theorem nodup_keys_of_ascending (h : Ascending d) : (keys d).Nodup :=
  List.pairwise_map.2 (h.imp String.ne_of_lt)

/-- In order each entry is found. -/
theorem get?_of_mem (h : Ascending d) (hmem : (key, value) ∈ d) : get? d key = some value :=
  get?_eq_some_of_mem (nodup_keys_of_ascending h) hmem

/-- What holds of every value is what holds of every value that is found. -/
theorem forall_mem_iff (h : Ascending d) {p : α → Prop} :
    (∀ entry ∈ d, p entry.2) ↔ ∀ key value, get? d key = some value → p value := by
  constructor
  · intro hall key value hget
    exact hall (key, value) (mem_of_get?_eq_some hget)
  · intro hall entry hentry
    exact hall entry.1 entry.2 (get?_of_mem h hentry)

/-- The first name is not found behind itself. -/
theorem get?_tail_eq_none {name : String} {first : α} (h : Ascending ((name, first) :: d)) :
    get? d name = none :=
  get?_eq_none_iff.2 (List.nodup_cons.1 (nodup_keys_of_ascending h)).1

/-- **The same look-ups, the same entries.** -/
theorem ext_of_get? (hd : Ascending d) (he : Ascending e) (h : ∀ key, get? d key = get? e key) :
    d = e := by
  induction d generalizing e with
  | nil =>
    cases e with
    | nil => rfl
    | cons entry e =>
      have hentry := h entry.1
      rw [get?_nil, get?_cons, if_pos rfl] at hentry
      cases hentry
  | cons entry d ih =>
    obtain ⟨name, first⟩ := entry
    have hfirst : get? ((name, first) :: d) name = some first := if_pos rfl
    cases e with
    | nil =>
      rw [h name] at hfirst
      cases hfirst
    | cons other e =>
      obtain ⟨name', first'⟩ := other
      have hother : get? ((name', first') :: e) name' = some first' := if_pos rfl
      -- each first name is found in the other dictionary, so neither comes before the other
      obtain rfl : name = name' :=
        String.le_antisymm (le_of_get?_eq_some hd ((h name').trans hother))
          (le_of_get?_eq_some he ((h name).symm.trans hfirst))
      obtain rfl : first = first' := Option.some.inj (hfirst.symm.trans ((h name).trans hother))
      refine congrArg _ (ih (List.pairwise_cons.1 hd).2 (List.pairwise_cons.1 he).2 fun key => ?_)
      by_cases hkey : key = name
      · rw [hkey, get?_tail_eq_none hd, get?_tail_eq_none he]
      · have hsame := h key
        rw [get?_cons, get?_cons, if_neg hkey, if_neg hkey] at hsame
        exact hsame

/-- Values that are replaced stay as they were exactly if each of them does. -/
theorem mapValues_eq_self_iff {f : α → α} :
    mapValues f d = d ↔ ∀ entry ∈ d, f entry.2 = entry.2 := by
  induction d with
  | nil => simp [mapValues]
  | cons entry d ih =>
    rw [List.forall_mem_cons, ← ih]
    simp [mapValues, Prod.ext_iff]

/-! ### Entries that are collected -/

@[simp] theorem keys_mapValues {β : Type*} (f : α → β) (d : Dict α) :
    keys (mapValues f d) = keys d := by
  simp [keys, mapValues]

/-- Entries in order are collected as they stand. -/
theorem ofList_of_ascending (h : Ascending d) : ofList d = d := by
  apply ext_of_get? (ascending_ofList d) h
  intro key
  exact get?_ofList_of_nodup (nodup_keys_of_ascending h) key

/-- What was collected is one of the entries. -/
theorem mem_of_mem_ofList {entry : String × α} (h : entry ∈ ofList d) : entry ∈ d :=
  mem_of_get?_ofList (get?_of_mem (ascending_ofList d) h)

/-- Entries of different names are all collected. -/
theorem perm_ofList (hnodup : (keys d).Nodup) : (ofList d).Perm d := by
  have hcollected : (ofList d).Nodup :=
    List.Nodup.of_map _ (nodup_keys_of_ascending (ascending_ofList d))
  rw [List.perm_ext_iff_of_nodup hcollected (List.Nodup.of_map _ hnodup)]
  rintro ⟨name, value⟩
  constructor
  · intro hmem
    exact mem_of_mem_ofList hmem
  · intro hmem
    apply mem_of_get?_eq_some
    rw [get?_ofList_of_nodup hnodup]
    exact get?_eq_some_of_mem hnodup hmem

/-- It does not matter in which order entries of different names stand. -/
theorem get?_eq_of_perm (hnodup : (keys d).Nodup) (hperm : d.Perm e) (key : String) :
    get? d key = get? e key := by
  have hother : (keys e).Nodup := (hperm.map Prod.fst).nodup hnodup
  cases hget : get? d key with
  | some value =>
    exact (get?_eq_some_of_mem hother (hperm.subset (mem_of_get?_eq_some hget))).symm
  | none =>
    rw [get?_eq_none_iff] at hget
    exact (get?_eq_none_iff.2 fun hmem => hget ((hperm.map Prod.fst).symm.subset hmem)).symm

/-- It does not matter in which order entries of different names are collected. -/
theorem ofList_eq_of_perm (hnodup : (keys d).Nodup) (hperm : d.Perm e) : ofList d = ofList e := by
  have hother : (keys e).Nodup := (hperm.map Prod.fst).nodup hnodup
  apply ext_of_get? (ascending_ofList d) (ascending_ofList e)
  intro key
  rw [get?_ofList_of_nodup hnodup, get?_ofList_of_nodup hother, get?_eq_of_perm hnodup hperm]

theorem keys_ofList_subset (d : Dict α) : keys (ofList d) ⊆ keys d := by
  intro name hmem
  obtain ⟨⟨_, value⟩, hentry, rfl⟩ := List.mem_map.1 hmem
  exact List.mem_map.2 ⟨_, mem_of_mem_ofList hentry, rfl⟩

theorem subperm_keys_ofList (d : Dict α) : (keys (ofList d)).Subperm (keys d) :=
  List.subperm_of_subset (nodup_keys_of_ascending (ascending_ofList d)) (keys_ofList_subset d)

/-- No more entries are collected than there are. -/
theorem length_ofList_le (d : Dict α) : (ofList d).length ≤ d.length := by
  simpa [keys] using (subperm_keys_ofList d).length_le

/-- If no entry is lost, no two have the same name. -/
theorem nodup_keys_of_length_le (h : d.length ≤ (ofList d).length) : (keys d).Nodup := by
  have hlength : (keys d).length ≤ (keys (ofList d)).length := by simpa [keys] using h
  have hperm := (subperm_keys_ofList d).perm_of_length_le hlength
  exact hperm.nodup (nodup_keys_of_ascending (ascending_ofList d))

end Dict

end GraphWalk
