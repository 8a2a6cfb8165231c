import GraphWalk.Proofs.Json.Places

/-!
# What an eviction removes

An eviction enters every list on its way, so the same fields lead to many places.  The
objects that all fields but the last one lead to are the holders: each loses the members
of the last field, in either spelling.  Every other object keeps its names, every list
its length, and every scalar stays.

## Main definitions

* `Json.Holder` — an object that all fields but the last one lead to.
* `Json.outline` — the names of an object, the length of a list, a scalar itself.

## Main results

* `Json.place?_prune_on_way` — on the way to the fields there is what was there, without what lies
  at the rest of the fields.
* `Json.prune_prune_self`, `Json.prune_comm` — evictions are idempotent, and commute.
* `State.evict_exactly` — **an eviction removes exactly its target.**
-/

namespace GraphWalk

namespace Place

/-- A place to which all fields lead lies at or below them. -/
theorem under_names (marker : Option Char) {place : Place} (h : place.names ≠ []) :
    Under marker place.names place := by
  induction place with
  | nil => exact absurd rfl h
  | cons hop place ih =>
    cases hop with
    | item index =>
      rw [names_item] at h ⊢
      obtain ⟨field, fields, hfields⟩ := List.exists_cons_of_ne_nil h
      rw [hfields, under_item, ← hfields]
      exact ih h
    | member name =>
      rw [names_member]
      cases hnames : names place with
      | nil => exact under_member_last.2 (.inl rfl)
      | cons next fields =>
        rw [under_member, ← hnames]
        exact ⟨rfl, ih (by rw [hnames]; exact List.cons_ne_nil _ _)⟩

end Place

namespace Json

/-- An object that some fields lead to, whatever items are entered on the way. -/
def Holder (fields : List String) (v : Json) (place : Place) (members : Dict Json) : Prop :=
  place.names = fields ∧ v.place? place = some (.object members)

/-- What a value is without the values that it holds: an object is told by its names, a list by its
length, and a scalar by itself. -/
def outline : Json → Json
  | .array items => .array (items.map fun _ => .null)
  | .object members => .object (Dict.mapValues (fun _ => .null) members)
  | scalar => scalar

variable {marker other : Option Char} {field next name : String} {fields rest names : List String}
  {v : Json} {members : Dict Json} {place : Place}

/-! ### Members -/

/-- Names that spell the field go. -/
theorem eraseName_eq_filter (marker : Option Char) (members : Dict Json) (field : String) :
    eraseName marker members field
      = members.filter fun entry => ¬Spelling marker field entry.1 := by
  cases marker with
  | none =>
    apply List.filter_congr
    intro entry _
    by_cases hname : entry.1 = field <;> simp [hname, Spelling]
  | some m =>
    rw [eraseName, Dict.erase, Dict.erase, List.filter_filter]
    apply List.filter_congr
    intro entry _
    have hspelled : Spelling (some m) field entry.1
        ↔ entry.1 = field ∨ entry.1 = marked m field := by
      simp [Spelling, eq_comm]
    rw [Bool.eq_iff_iff]
    simp [hspelled, and_comm]

/-- Every member of the name is entered. -/
theorem pruneMember_eq_map (marker : Option Char) (field : String) (fields : List String)
    (members : Dict Json) :
    pruneMember marker field fields members = members.map fun entry =>
      (entry.1, if entry.1 = field then entry.2.prune marker fields else entry.2) := by
  induction members with
  | nil => rfl
  | cons entry members ih => rw [pruneMember, ih, List.map_cons]

theorem eraseName_comm (marker other : Option Char) (members : Dict Json) (field name : String) :
    eraseName other (eraseName marker members field) name
      = eraseName marker (eraseName other members name) field := by
  simp only [eraseName_eq_filter, List.filter_filter]
  apply List.filter_congr
  intro entry _
  exact Bool.and_comm _ _

theorem eraseName_eraseName (marker : Option Char) (members : Dict Json) (field : String) :
    eraseName marker (eraseName marker members field) field = eraseName marker members field := by
  simp only [eraseName_eq_filter, List.filter_filter, Bool.and_self]

theorem eraseName_pruneMember (marker other : Option Char) (members : Dict Json)
    (field name : String) (fields : List String) :
    eraseName other (pruneMember marker field fields members) name
      = pruneMember marker field fields (eraseName other members name) := by
  simp only [eraseName_eq_filter, pruneMember_eq_map, List.filter_map, Function.comp_def]

/-- Members are entered one after the other in either order if that is so of their values. -/
theorem pruneMember_comm (field name : String)
    (h : ∀ entry ∈ members, (entry.2.prune marker fields).prune other names
      = (entry.2.prune other names).prune marker fields) :
    pruneMember other name names (pruneMember marker field fields members)
      = pruneMember marker field fields (pruneMember other name names members) := by
  simp only [pruneMember_eq_map, List.map_map]
  apply List.map_congr_left
  rintro ⟨found, value⟩ hentry
  have hvalue := h _ hentry
  by_cases hfield : found = field
  · by_cases hname : found = name
    · simp [← hfield, ← hname, hvalue]
    · simp [← hfield, hname]
  · simp [hfield]

theorem pruneMember_pruneMember (field : String)
    (h : ∀ entry ∈ members, (entry.2.prune marker fields).prune marker fields
      = entry.2.prune marker fields) :
    pruneMember marker field fields (pruneMember marker field fields members)
      = pruneMember marker field fields members := by
  simp only [pruneMember_eq_map, List.map_map]
  apply List.map_congr_left
  rintro ⟨found, value⟩ hentry
  have hvalue := h _ hentry
  by_cases hfield : found = field
  · simp [hfield, hvalue]
  · simp [hfield]

/-! ### Evictions one after the other -/

/-- An eviction leaves nothing for the same eviction. -/
theorem prune_prune_self (marker : Option Char) : ∀ (v : Json) (fields : List String),
    (v.prune marker fields).prune marker fields = v.prune marker fields
  | .array items, fields => by
    simp only [prune, pruneItems_eq_map, List.map_map]
    congr 1
    apply List.map_congr_left
    intro item hitem
    have := List.sizeOf_lt_of_mem hitem
    exact prune_prune_self marker item fields
  | .object members, [] => by simp only [prune]
  | .object members, [field] => by simp only [prune, eraseName_eraseName]
  | .object members, field :: next :: fields => by
    simp only [prune]
    rw [pruneMember_pruneMember]
    intro entry hentry
    have := sizeOf_lt_of_mem hentry
    exact prune_prune_self marker entry.2 (next :: fields)
  | .null, _ => by simp only [prune]
  | .bool _, _ => by simp only [prune]
  | .number _, _ => by simp only [prune]
  | .string _, _ => by simp only [prune]
termination_by v => sizeOf v

/-- Evictions may come in either order. -/
theorem prune_comm (marker other : Option Char) : ∀ (v : Json) (fields names : List String),
    (v.prune marker fields).prune other names = (v.prune other names).prune marker fields
  | .array items, fields, names => by
    simp only [prune, pruneItems_eq_map, List.map_map]
    congr 1
    apply List.map_congr_left
    intro item hitem
    have := List.sizeOf_lt_of_mem hitem
    exact prune_comm marker other item fields names
  | .object members, [], names => by
    rcases names with _ | ⟨name, _ | ⟨after, names⟩⟩ <;> simp only [prune]
  | .object members, [field], names => by
    rcases names with _ | ⟨name, _ | ⟨after, names⟩⟩
    · simp only [prune]
    · simp only [prune, eraseName_comm marker other]
    · simp only [prune, eraseName_pruneMember]
  | .object members, field :: next :: fields, names => by
    rcases names with _ | ⟨name, _ | ⟨after, names⟩⟩
    · simp only [prune]
    · simp only [prune, eraseName_pruneMember]
    · simp only [prune]
      rw [pruneMember_comm]
      intro entry hentry
      have := sizeOf_lt_of_mem hentry
      exact prune_comm marker other entry.2 (next :: fields) (after :: names)
  | .null, _, _ => by simp only [prune]
  | .bool _, _, _ => by simp only [prune]
  | .number _, _, _ => by simp only [prune]
  | .string _, _, _ => by simp only [prune]
termination_by v => sizeOf v

/-! ### Places on the way -/

/-- **On the way to the fields** there is what was there, without what lies at the rest of the
fields. -/
theorem place?_prune_on_way (hrest : rest ≠ []) (v : Json) (place : Place) :
    (v.prune marker (place.names ++ rest)).place? place
      = (v.place? place).map (prune marker rest) := by
  induction place generalizing v with
  | nil => simp
  | cons hop place ih =>
    obtain ⟨next, fields, hfields⟩ :=
      List.exists_cons_of_ne_nil (List.append_ne_nil_of_right_ne_nil (Place.names place) hrest)
    rw [place?_cons, place?_cons]
    cases hop with
    | item index =>
      rw [Place.names_item, hop?_item_prune]
      cases v.hop? (.item index) with
      | none => rfl
      | some child => exact ih child
    | member name =>
      rw [Place.names_member, List.cons_append, hop?_member, hop?_member, hfields, member?_prune,
        if_pos rfl, ← hfields]
      cases v.member? name with
      | none => rfl
      | some child => exact ih child

/-- Before the last field nothing is lost but what the values hold. -/
theorem outline_prune (v : Json) :
    (v.prune marker (field :: next :: fields)).outline = v.outline := by
  cases v with
  | array items => simp [prune, pruneItems_eq_map, outline, Function.comp_def]
  | object members =>
    simp [prune, pruneMember_eq_map, outline, Dict.mapValues, Function.comp_def]
  | _ => simp only [prune]

/-- What is no object is no holder. -/
theorem outline_prune_last (hv : v.isObject = false) :
    (v.prune marker [field]).outline = v.outline := by
  cases v with
  | array items => simp [prune, pruneItems_eq_map, outline, Function.comp_def]
  | object members => cases hv
  | _ => simp only [prune]

/-- A holder loses the members that spell the last field. -/
theorem Holder.place?_prune (h : Holder names v place members) (marker : Option Char)
    (field : String) :
    (v.prune marker (names ++ [field])).place? place
      = some (.object (members.filter fun entry => ¬Spelling marker field entry.1)) := by
  obtain ⟨rfl, hplace⟩ := h
  rw [place?_prune_on_way (List.cons_ne_nil field []), hplace, Option.map_some, prune,
    eraseName_eq_filter]

/-- On the way to the fields a value that is no holder keeps its outline. -/
theorem outline_place?_prune_on_way (honway : place.names <+: names)
    (hholder : ∀ members, ¬Holder names v place members) (marker : Option Char) (field : String) :
    ((v.prune marker (names ++ [field])).place? place).map outline
      = (v.place? place).map outline := by
  obtain ⟨more, rfl⟩ := honway
  rw [List.append_assoc, place?_prune_on_way (List.append_ne_nil_of_right_ne_nil more
    (List.cons_ne_nil field [])), Option.map_map]
  cases hplace : v.place? place with
  | none => rfl
  | some w =>
    rw [Option.map_some, Option.map_some, Function.comp_apply]
    cases more with
    | cons next more =>
      obtain ⟨after, fields, hfields⟩ := List.exists_cons_of_ne_nil
        (List.append_ne_nil_of_right_ne_nil more (List.cons_ne_nil field []))
      rw [List.cons_append, hfields, outline_prune]
    | nil =>
      have hobject : w.isObject = false := by
        cases w with
        | object members => exact absurd ⟨(List.append_nil _).symm, hplace⟩ (hholder members)
        | _ => rfl
      rw [List.nil_append, outline_prune_last hobject]

end Json

namespace State

open Json

/-- The value after an eviction of some fields. -/
theorem evicted_concat (marker : Option Char) (init : List String) (field : String) (v : Json) :
    evicted marker (init ++ [field]) v = v.prune marker (init ++ [field]) := by
  rw [evicted, if_neg]
  simp

theorem evicted_empty (marker : Option Char) (fields : List String) :
    evicted marker fields empty = empty := by
  rcases fields with _ | ⟨field, _ | ⟨next, fields⟩⟩
  · rfl
  · simp [evicted, empty, prune, eraseName_eq_filter]
  · simp [evicted, empty, prune, pruneMember]

theorem evicted_evicted (marker : Option Char) (fields : List String) (v : Json) :
    evicted marker fields (evicted marker fields v) = evicted marker fields v := by
  cases fields with
  | nil => rfl
  | cons field fields => exact prune_prune_self marker v (field :: fields)

theorem evicted_comm (marker other : Option Char) (fields names : List String) (v : Json) :
    evicted other names (evicted marker fields v)
      = evicted marker fields (evicted other names v) := by
  cases fields with
  | nil => exact evicted_empty other names
  | cons field fields =>
    cases names with
    | nil => exact (evicted_empty marker (field :: fields)).symm
    | cons name names => exact prune_comm marker other v (field :: fields) (name :: names)

/-- **An eviction removes exactly its target.**  Nothing is left at or below the fields.  Every
holder keeps exactly the members that do not spell the last field, as they were; everything else
that is not removed keeps its outline, and nothing new appears.  It is one write, an eviction that
comes again changes nothing, and any two evictions may come in either order. -/
theorem evict_exactly (s : State) (marker : Option Char) (init : List String) (field : String) :
    let fields := init ++ [field]
    let after := s.evict fields marker
    (∀ place, Place.Under marker fields place → after.value.place? place = none) ∧
    (∀ place members, Holder init s.value place members →
      after.value.place? place
        = some (.object (members.filter fun entry => ¬Spelling marker field entry.1))) ∧
    (∀ place, ¬Place.Under marker fields place →
      (∀ members, ¬Holder init s.value place members) →
        (after.value.place? place).map outline = (s.value.place? place).map outline) ∧
    after.version = s.version + 1 ∧
    (after.evict fields marker).value = after.value ∧
    ∀ (names : List String) (other : Option Char),
      (after.evict names other).value = ((s.evict names other).evict fields marker).value := by
  intro fields after
  have hafter : after.value = s.value.prune marker (init ++ [field]) :=
    evicted_concat marker init field s.value
  refine ⟨?under, ?holders, ?others, rfl, ?again, ?order⟩
  case under =>
    intro place hunder
    exact lacks_evicted marker fields s.value place hunder
  case holders =>
    intro place members hholder
    rw [hafter]
    exact hholder.place?_prune marker field
  case others =>
    intro place hunder hholder
    by_cases honway : place.names <+: init
    · rw [hafter]
      exact outline_place?_prune_on_way honway hholder marker field
    · -- a place that is not on the way is not touched at all
      have hapart : ¬place.names <+: fields := by
        intro hfields
        rcases List.prefix_concat_iff.1 hfields with hnames | hnames
        · have hall : place.names = fields := hnames
          rw [← hall] at hunder
          exact hunder (Place.under_names marker (by simp [hnames]))
        · exact honway hnames
      have hfields : fields ≠ [] := List.append_ne_nil_of_right_ne_nil init (List.cons_ne_nil _ _)
      exact congrArg (Option.map outline)
        ((place?_evicted_of_not_under hfields s.value hunder).2 hapart)
  case again => exact evicted_evicted marker fields s.value
  case order =>
    intro names other
    exact evicted_comm marker other fields names s.value

end State

end GraphWalk
