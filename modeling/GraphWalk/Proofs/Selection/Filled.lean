import GraphWalk.Proofs.Selection.Served

/-!
# Levels that are not empty

A field is written with arguments or with a selection that may turn out empty: when it was
given no arguments but empty ones, or when what stands beside its arguments asks for nothing.
Paths rule out both.  Where no path gives empty arguments, and none gives arguments to a field
that has the name of selections, every level below the paths holds what is written for it.

## Main definitions

* `Selection.Level.Opens` — an object that is written as a field lies below another one.
* `Selection.Level.Filled` — neither the arguments nor the selection of a field are empty.
* `Selection.Sound` — requests that leave nothing empty.

## Main results

* `Selection.Level.filled_of_opens` — **below sound requests every level is filled.**
-/

namespace GraphWalk

namespace Selection

namespace Level

/-- Some field is asked for. -/
def Asks (l : Level) : Prop := ∃ name, l.entry name = .chosen ∨ l.entry name = .nested

/-- A field is written with arguments if it has any, and with a selection of something; only beside
arguments the selection may be empty, and is left out then. -/
structure Filled (l : Level) : Prop where
  arguments : l.entry argumentsName = .nested → (l.below argumentsName).members ≠ []
  selection : l.shown.Asks ∨ l.entry argumentsName = .nested ∧ l.shown.members = []

/-- The second level is that of a field that is written below the first one. -/
inductive Opens : Level → Level → Prop
  /-- The field is one of the first level. -/
  | here {l : Level} {name : String} (h : l.entry name = .nested) : Opens l (l.below name)
  /-- The field is written below one of the first level. -/
  | further {l m : Level} {name : String} (h : l.entry name = .nested)
      (hbelow : Opens (l.below name).shown m) : Opens l m

end Level

/-- Arguments stand behind fields and are not empty, and none are given to a field that has the name
of selections and stands behind another field. -/
structure Sound (requests : List (List Step)) : Prop where
  shaped : ∀ p ∈ requests, Shaped false p
  arguments : ∀ p ∈ requests, Step.arguments [] ∉ p
  selection : ∀ p ∈ requests, ∀ name args,
    ¬[.field name, .field selectionName, .arguments args] <:+: p

/-! ### Objects that requests leave -/

theorem nest_ne_nil (members : Dict Json) {request : List Step} (h : request ≠ []) :
    nest members request ≠ [] := by
  have hinsert : ∀ (members : Dict Json) (name : String) (value : Json),
      Dict.insert members name value ≠ [] := by
    intro members name value hnil
    have hget := Dict.get?_insert_self members name value
    rw [hnil] at hget
    cases hget
  cases request with
  | nil => exact absurd rfl h
  | cons step rest =>
    cases step with
    | field name =>
      cases rest with
      | nil =>
        rw [nest_field_nil]
        split
        · next hcontains =>
          rintro rfl
          cases hcontains
        · exact hinsert _ _ _
      | cons next rest => exact hinsert _ _ _
    | arguments args => exact hinsert _ _ _

/-- A request leaves no empty object but a selection. -/
theorem get?_nest_ne_empty {members : Dict Json} {request : List Step}
    (hargs : Step.arguments [] ∉ request) {name : String} (hname : name ≠ selectionName)
    (h : Dict.get? members name ≠ some (.object [])) :
    Dict.get? (nest members request) name ≠ some (.object []) := by
  cases request with
  | nil => exact h
  | cons step rest =>
    cases step with
    | field first =>
      cases rest with
      | nil =>
        rw [nest_field_nil]
        split
        · exact h
        · rw [Dict.get?_insert]
          split
          · exact nofun
          · exact h
      | cons next rest =>
        rw [nest_field_cons, Dict.get?_insert]
        split
        · intro hempty
          exact nest_ne_nil _ (List.cons_ne_nil next rest)
            (Json.object.inj (Option.some.inj hempty))
        · exact h
    | arguments args =>
      rw [nest_arguments, Dict.get?_insert_of_ne _ hname, Dict.get?_insert]
      split
      · intro hempty
        obtain rfl := Json.object.inj (Option.some.inj hempty)
        exact hargs List.mem_cons_self
      · exact h

namespace Level

variable {l : Level} {name : String}

/-- Requests without empty arguments leave no empty object but a selection. -/
theorem get?_members_ne_empty (hgiven : l.given = [])
    (hargs : ∀ p ∈ l.requests, Step.arguments [] ∉ p) (hname : name ≠ selectionName) :
    Dict.get? l.members name ≠ some (.object []) := by
  obtain ⟨given, requests⟩ := l
  obtain rfl : given = [] := hgiven
  induction requests using List.reverseRecOn with
  | nil => exact nofun
  | append_singleton requests last ih =>
    have hlast := hargs last (List.mem_append_right _ List.mem_cons_self)
    have hrest := ih fun p hp => hargs p (List.mem_append_left _ hp)
    rw [show members ⟨[], requests ++ [last]⟩ = nest (members ⟨[], requests⟩) last from
      members_more ⟨[], requests⟩ last]
    exact get?_nest_ne_empty hlast hname hrest

/-- An object is left by a request that goes on. -/
theorem exists_ne_nil_of_members_ne (hgiven : l.given = []) (h : l.members ≠ []) :
    ∃ p ∈ l.requests, p ≠ [] := by
  obtain ⟨given, requests⟩ := l
  obtain rfl : given = [] := hgiven
  induction requests using List.reverseRecOn with
  | nil => exact absurd rfl h
  | append_singleton requests last ih =>
    rw [show members ⟨[], requests ++ [last]⟩ = nest (members ⟨[], requests⟩) last from
      members_more ⟨[], requests⟩ last] at h
    cases last with
    | cons step rest =>
      exact ⟨_, List.mem_append_right _ List.mem_cons_self, List.cons_ne_nil _ _⟩
    | nil =>
      obtain ⟨p, hp, hne⟩ := ih h
      exact ⟨p, List.mem_append_left _ hp, hne⟩

/-- A request that begins with a field asks for it. -/
theorem asks_of_mem (hgiven : l.given = []) {rest : List Step}
    (hmem : Step.field name :: rest ∈ l.requests) : l.Asks :=
  ⟨name, entry_of_mem hgiven hmem⟩

theorem asks_of_shaped (hgiven : l.given = []) (hshaped : ∀ p ∈ l.requests, Shaped false p)
    {p : List Step} (hp : p ∈ l.requests) (hne : p ≠ []) : l.Asks := by
  cases p with
  | nil => exact absurd rfl hne
  | cons step rest =>
    cases step with
    | field first => exact asks_of_mem hgiven hp
    | arguments args => exact absurd (hshaped _ hp) (not_shaped_arguments args rest)

/-- Where arguments are written, some are left. -/
theorem arguments_ne_nil (hgiven : l.given = []) (hargs : ∀ p ∈ l.requests, Step.arguments [] ∉ p)
    (h : l.entry argumentsName = .nested) : (l.below argumentsName).members ≠ [] := by
  obtain ⟨args, hget⟩ := Entry.of_eq_nested_iff.1 ((l.entry_members argumentsName).trans h)
  rw [← child_members, child, hget]
  rintro rfl
  exact get?_members_ne_empty hgiven hargs selectionName_ne_argumentsName.symm hget

end Level

/-! ### Below sound requests -/

/-- What is left of sound requests is sound, as far as it begins with fields. -/
theorem Sound.of_append {requests left : List (List Step)} (h : Sound requests)
    (hleft : ∀ p ∈ left, ∃ before, before ++ p ∈ requests)
    (hshaped : ∀ p ∈ left, Shaped false p) : Sound left where
  shaped := hshaped
  arguments := by
    intro p hp hmem
    obtain ⟨before, hbefore⟩ := hleft p hp
    exact h.arguments _ hbefore (List.mem_append_right _ hmem)
  selection := by
    intro p hp name args hwithin
    obtain ⟨before, hbefore⟩ := hleft p hp
    exact h.selection _ hbefore name args (hwithin.trans (List.suffix_append before p).isInfix)

theorem shaped_of_not_arguments {request : List Step} (h : Shaped true request)
    (hnot : ∀ args rest, request ≠ .arguments args :: rest) : Shaped false request := by
  cases request with
  | nil => trivial
  | cons step rest =>
    cases step with
    | field name => exact h
    | arguments args => exact absurd rfl (hnot args rest)

namespace Level

section Sound

variable {l : Level} {name : String} (hgiven : l.given = []) (hsound : Sound l.requests)

include hgiven hsound

/-- What is shown below a field is sound again. -/
theorem sound_shown : (l.below name).shown.given = [] ∧ Sound (l.below name).shown.requests := by
  obtain ⟨hnone, hunder⟩ := below_of_shaped name hgiven hsound.shaped
  have hshaped : ∀ p ∈ (l.below name).requests, Shaped true p :=
    fun p hp => hsound.shaped _ ((hunder p).1 hp)
  rw [shown]
  split
  -- beside arguments: what follows them, and what asks for fields of the name of selections
  · rw [below_eq fun h => absurd h selectionName_ne_argumentsName, hnone]
    refine ⟨rfl, hsound.of_append ?_ ?_⟩
    · intro p hp
      rcases mem_left_iff.1 hp with hfield | ⟨-, args, hargs⟩
      · exact ⟨[.field name, .field selectionName], (hunder _).1 hfield⟩
      · exact ⟨[.field name, .arguments args], (hunder _).1 hargs⟩
    · intro p hp
      rcases mem_left_iff.1 hp with hfield | ⟨-, args, hargs⟩
      · have hbehind : Shaped true (.field selectionName :: p) := hshaped _ hfield
        have hrest : Shaped true p := hbehind
        refine shaped_of_not_arguments hrest ?_
        rintro args rest rfl
        exact hsound.selection _ ((hunder _).1 hfield) name args ⟨[], rest, rfl⟩
      · exact (hshaped _ hargs).2
  · next hplain =>
    refine ⟨hnone, hsound.of_append (fun p hp => ⟨[.field name], (hunder p).1 hp⟩) fun p hp => ?_⟩
    refine shaped_of_not_arguments (hshaped p hp) ?_
    rintro args rest rfl
    exact hplain ((entry_eq_nested_iff hnone).2 ⟨_, hp, .arguments args rest (.inl rfl)⟩)

/-- A field that is written has something to show. -/
theorem filled_below (h : l.entry name = .nested) : (l.below name).Filled := by
  obtain ⟨hnone, hunder⟩ := below_of_shaped name hgiven hsound.shaped
  obtain ⟨hgivenShown, hshown⟩ : (l.below name).shown.given = [] ∧
      Sound (l.below name).shown.requests := sound_shown hgiven hsound
  have hargs : ∀ p ∈ (l.below name).requests, Step.arguments [] ∉ p := fun p hp hmem =>
    hsound.arguments _ ((hunder p).1 hp) (List.mem_cons_of_mem _ hmem)
  refine ⟨arguments_ne_nil hnone hargs, ?_⟩
  by_cases harguments : (l.below name).entry argumentsName = .nested
  · by_cases hempty : (l.below name).shown.members = []
    · exact .inr ⟨harguments, hempty⟩
    · obtain ⟨p, hp, hne⟩ := exists_ne_nil_of_members_ne hgivenShown hempty
      exact .inl (asks_of_shaped hgivenShown hshown.shaped hp hne)
  · -- without arguments everything below the field is shown, and some request goes on there
    have hall : (l.below name).shown = l.below name := if_neg harguments
    rw [hall] at hshown
    obtain ⟨request, hmem, hleads⟩ := (entry_eq_nested_iff hgiven).1 h
    rw [hall]
    cases hleads with
    | field step rest =>
      exact .inl (asks_of_shaped hnone hshown.shaped ((hunder _).2 hmem) (List.cons_ne_nil _ _))
    | arguments args rest _ =>
      exact absurd (hsound.shaped _ hmem) (not_shaped_arguments args rest)

/-- **Below sound requests every level is filled.** -/
theorem filled_of_opens {m : Level} (h : l.Opens m) : m.Filled := by
  induction h with
  | here h => exact filled_below hgiven hsound h
  | further h _ ih =>
    obtain ⟨hgivenShown, hshown⟩ := sound_shown hgiven hsound
    exact ih hgivenShown hshown

end Sound

end Level

end Selection

end GraphWalk
