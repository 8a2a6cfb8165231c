import Mathlib.Data.List.Induction
import GraphWalk.Proofs.Document.Rendering

/-!
# The levels of a selection

Every object of a selection is a level: paths, or what is left of them, come to it one after
the other.  What stands under a name at one level is a level again, and which requests come
there is told from the requests that came above, without the objects in between.

## Main definitions

* `Selection.Level` — the requests that came to an object of a selection.
* `Selection.Level.below` — the level under a name.
* `Selection.Level.entry` — what kind of value stands under a name.
* `Selection.Leads`, `Selection.rest?` — what one request puts below a name.

## Main results

* `Selection.Level.child_members`, `Selection.Level.entry_members` — levels are the objects.
* `Selection.Level.entry_eq`, `Selection.Level.below_eq` — what requests leave at a level.
* `Selection.wellFormed_membersOf` — selections are well formed.
-/

namespace GraphWalk

namespace Selection

/-- The requests that came to one object of a selection. -/
structure Level where
  /-- What was there before them. -/
  given : Dict Json := []
  /-- The rest of each path that came, in order. -/
  requests : List (List Step) := []

/-- What kind of value stands under a name. -/
inductive Entry
  /-- There is none. -/
  | absent
  /-- The field is asked for itself. -/
  | chosen
  /-- There is an object. -/
  | nested
  /-- There is another value, which no path puts there. -/
  | other
  deriving DecidableEq

/-- The kind of a value. -/
def Entry.of : Option Json → Entry
  | none => .absent
  | some (.bool true) => .chosen
  | some (.object _) => .nested
  | some _ => .other

namespace Level

/-- The object that the requests make. -/
def members (l : Level) : Dict Json := l.requests.foldl nest l.given

/-- One more request. -/
def more (l : Level) (request : List Step) : Level :=
  { l with requests := l.requests ++ [request] }

/-- What a request does to the level under a name.  Arguments replace what stands under the name of
arguments, and what follows them goes under the name of selections. -/
def passDown (name : String) (below : Level) : List Step → Level
  | [] => below
  | .field first :: rest => if name = first then below.more rest else below
  | .arguments args :: rest =>
    if name = argumentsName then { given := args }
    else if name = selectionName then below.more rest
    else below

/-- The level under a name. -/
def below (l : Level) (name : String) : Level :=
  l.requests.foldl (passDown name) { given := child l.given name }

/-- What a request does to the kind of value under a name. -/
def mark (name : String) (entry : Entry) : List Step → Entry
  | [] => entry
  | [.field first] => if name = first ∧ entry = .absent then .chosen else entry
  | .field first :: _ :: _ => if name = first then .nested else entry
  | .arguments _ :: _ => if name = argumentsName ∨ name = selectionName then .nested else entry

/-- The kind of value under a name. -/
def entry (l : Level) (name : String) : Entry :=
  l.requests.foldl (mark name) (Entry.of (Dict.get? l.given name))

theorem members_more (l : Level) (request : List Step) :
    (l.more request).members = nest l.members request :=
  List.foldl_append

end Level

/-! ### One request -/

theorem selectionName_ne_argumentsName : selectionName ≠ argumentsName := by decide

theorem child_insert_self (members : Dict Json) (name : String) (inner : Dict Json) :
    child (Dict.insert members name (.object inner)) name = inner := by
  rw [child, Dict.get?_insert_self]

theorem child_insert_of_ne (members : Dict Json) {key name : String} (h : name ≠ key)
    (value : Json) : child (Dict.insert members key value) name = child members name := by
  rw [child, Dict.get?_insert_of_ne _ h, child]

/-- To ask for a field itself puts nothing below it. -/
theorem child_nest_field_nil (members : Dict Json) (first name : String) :
    child (nest members [.field first]) name = child members name := by
  rw [nest_field_nil]
  split
  · rfl
  · next habsent =>
    by_cases hname : name = first
    · subst hname
      have hget : Dict.get? members name = none := by
        rw [Dict.contains, Option.not_isSome_iff_eq_none] at habsent
        exact habsent
      rw [child, child, Dict.get?_insert_self, hget]
    · exact child_insert_of_ne members hname _

namespace Level

/-- A request changes what stands under a name as it changes the level there. -/
theorem members_passDown {name : String} {below : Level} {members : Dict Json}
    (h : below.members = child members name) (request : List Step) :
    (passDown name below request).members = child (nest members request) name := by
  cases request with
  | nil => exact h
  | cons step rest =>
    cases step with
    | field first =>
      rw [passDown]
      by_cases hname : name = first
      · subst hname
        rw [if_pos rfl, members_more, h]
        cases rest with
        | nil => rw [nest_nil, child_nest_field_nil]
        | cons step rest => rw [nest_field_cons, child_insert_self]
      · rw [if_neg hname, h]
        cases rest with
        | nil => rw [child_nest_field_nil]
        | cons step rest => rw [nest_field_cons, child_insert_of_ne members hname]
    | arguments args =>
      rw [passDown, nest_arguments]
      -- arguments are put down whole: nothing that stood under their name is left
      by_cases harguments : name = argumentsName
      · subst harguments
        rw [if_pos rfl, child_insert_of_ne _ selectionName_ne_argumentsName.symm,
          child_insert_self]
        rfl
      · rw [if_neg harguments]
        by_cases hselection : name = selectionName
        · subst hselection
          rw [if_pos rfl, members_more, h, child_insert_self, child_insert_of_ne members harguments]
        · rw [if_neg hselection, child_insert_of_ne _ hselection,
            child_insert_of_ne _ harguments, h]

/-- A request changes the kind of value under a name as it changes the value. -/
theorem mark_entry (name : String) (members : Dict Json) (request : List Step) :
    mark name (Entry.of (Dict.get? members name)) request
      = Entry.of (Dict.get? (nest members request) name) := by
  cases request with
  | nil => rfl
  | cons step rest =>
    cases step with
    | field first =>
      cases rest with
      | nil =>
        rw [mark, nest_field_nil, Dict.contains]
        by_cases hname : name = first
        · subst hname
          cases hget : Dict.get? members name with
          | none =>
            rw [Option.isSome_none, if_pos ⟨rfl, rfl⟩, if_neg Bool.false_ne_true,
              Dict.get?_insert_self]
            rfl
          | some value =>
            rw [Option.isSome_some, if_pos (Eq.refl true), hget, if_neg]
            rintro ⟨-, habsent⟩
            revert habsent
            rw [Entry.of.eq_def]
            split <;> intro habsent <;> cases habsent
            next hnone => cases hnone
        · rw [if_neg fun h => hname h.1]
          split
          · rfl
          · rw [Dict.get?_insert_of_ne _ hname]
      | cons step rest =>
        rw [mark, nest_field_cons, Dict.get?_insert]
        split <;> rfl
    | arguments args =>
      rw [mark, nest_arguments, Dict.get?_insert, Dict.get?_insert]
      by_cases hselection : name = selectionName
      · rw [if_pos (.inr hselection), if_pos hselection]
        rfl
      · by_cases harguments : name = argumentsName
        · rw [if_pos (.inl harguments), if_neg hselection, if_pos harguments]
          rfl
        · rw [if_neg hselection, if_neg harguments, if_neg]
          rintro (h | h)
          · exact harguments h
          · exact hselection h

/-! ### All requests -/

/-- What stands under a name is the level there. -/
theorem child_members (l : Level) (name : String) :
    child l.members name = (l.below name).members := by
  obtain ⟨given, requests⟩ := l
  have hrun : ∀ (requests : List (List Step)) (members : Dict Json) (below : Level),
      below.members = child members name →
        (requests.foldl (passDown name) below).members
          = child (requests.foldl nest members) name := by
    intro requests
    induction requests with
    | nil => exact fun _ _ h => h
    | cons request requests ih => exact fun _ _ h => ih _ _ (members_passDown h request)
  exact (hrun requests given _ rfl).symm

/-- The kind of value under a name is told from the requests. -/
theorem entry_members (l : Level) (name : String) :
    Entry.of (Dict.get? l.members name) = l.entry name := by
  obtain ⟨given, requests⟩ := l
  rw [members, entry]
  induction requests generalizing given with
  | nil => rfl
  | cons request requests ih => rw [List.foldl_cons, List.foldl_cons, ih, mark_entry]

end Level

/-! ### What requests leave at a level -/

/-- A request has something to put below a name. -/
inductive Leads (name : String) : List Step → Prop
  /-- It goes on behind the field. -/
  | field (step : Step) (rest : List Step) : Leads name (.field name :: step :: rest)
  /-- It begins with arguments, which make room for themselves and for what follows them. -/
  | arguments (args : Dict Json) (rest : List Step)
    (h : name = argumentsName ∨ name = selectionName) : Leads name (.arguments args :: rest)

/-- What is left of a request under a name. -/
def rest? (name : String) : List Step → Option (List Step)
  | [] => none
  | .field first :: rest => if name = first then some rest else none
  | .arguments _ :: rest => if name = selectionName then some rest else none

theorem rest?_eq_some_iff {name : String} {request left : List Step} :
    rest? name request = some left ↔ request = .field name :: left ∨
      name = selectionName ∧ ∃ args, request = .arguments args :: left := by
  rw [rest?.eq_def]
  split
  · exact ⟨nofun, nofun⟩
  · next first rest =>
    split
    · next hname =>
      subst hname
      constructor
      · exact fun h => .inl (Option.some.inj h ▸ rfl)
      · rintro (h | ⟨-, _, h⟩) <;> cases h
        rfl
    · next hname =>
      refine ⟨nofun, fun h => h.elim (fun h => ?_) nofun⟩
      cases h
      exact absurd rfl hname
  · next args rest =>
    split
    · next hname =>
      refine ⟨fun h => .inr ⟨hname, args, Option.some.inj h ▸ rfl⟩, ?_⟩
      rintro (h | ⟨-, _, h⟩) <;> cases h
      rfl
    · next hname => exact ⟨nofun, fun h => h.elim nofun fun h => absurd h.1 hname⟩

theorem mem_left_iff {name : String} {requests : List (List Step)} {left : List Step} :
    left ∈ requests.filterMap (rest? name) ↔ Step.field name :: left ∈ requests ∨
      name = selectionName ∧ ∃ args, Step.arguments args :: left ∈ requests := by
  rw [List.mem_filterMap]
  constructor
  · rintro ⟨request, hmem, hrest⟩
    rcases rest?_eq_some_iff.1 hrest with rfl | ⟨hname, args, rfl⟩
    · exact .inl hmem
    · exact .inr ⟨hname, args, hmem⟩
  · rintro (hmem | ⟨hname, args, hmem⟩)
    · exact ⟨_, hmem, rest?_eq_some_iff.2 (.inl rfl)⟩
    · exact ⟨_, hmem, rest?_eq_some_iff.2 (.inr ⟨hname, args, rfl⟩)⟩

namespace Level

variable {l : Level} {name : String}

open Classical in
/-- A request puts an object under a name, asks for a name that is not there, or changes nothing. -/
theorem mark_eq (name : String) (entry : Entry) (request : List Step) :
    mark name entry request = if Leads name request then .nested
      else if request = [.field name] ∧ entry = .absent then .chosen else entry := by
  cases request with
  | nil =>
    rw [mark, if_neg, if_neg]
    · rintro ⟨h, -⟩
      cases h
    · intro h
      cases h
  | cons step rest =>
    cases step with
    | field first =>
      cases rest with
      | nil =>
        have hleads : ¬Leads name [.field first] := by
          intro h
          cases h
        rw [mark, if_neg hleads]
        simp only [List.cons.injEq, Step.field.injEq, and_true, eq_comm]
      | cons step rest =>
        rw [mark]
        by_cases hname : name = first
        · subst hname
          rw [if_pos rfl, if_pos (.field step rest)]
        · rw [if_neg hname, if_neg, if_neg]
          · rintro ⟨h, -⟩
            cases h
          · intro h
            cases h
            exact hname rfl
    | arguments args =>
      rw [mark]
      by_cases hname : name = argumentsName ∨ name = selectionName
      · rw [if_pos hname, if_pos (.arguments args rest hname)]
      · rw [if_neg hname, if_neg, if_neg]
        · rintro ⟨h, -⟩
          cases h
        · intro h
          cases h with
          | arguments _ _ h => exact hname h

open Classical in
/-- Under a name there is an object when a request put something there, and otherwise the name is
chosen when a request ends with it. -/
theorem entry_eq (hgiven : l.given = []) (name : String) :
    l.entry name = if ∃ request ∈ l.requests, Leads name request then .nested
      else if [.field name] ∈ l.requests then .chosen else .absent := by
  obtain ⟨given, requests⟩ := l
  obtain rfl : given = [] := hgiven
  rw [entry]
  induction requests using List.reverseRecOn with
  | nil =>
    rw [if_neg, if_neg List.not_mem_nil]
    · rfl
    · rintro ⟨_, hmem, -⟩
      cases hmem
  | append_singleton requests last ih =>
    rw [List.foldl_append, ih, List.foldl_cons, List.foldl_nil, mark_eq]
    have hleads : (∃ request ∈ requests ++ [last], Leads name request)
        ↔ (∃ request ∈ requests, Leads name request) ∨ Leads name last := by
      simp only [List.mem_append, List.mem_singleton, or_and_right, exists_or, exists_eq_left]
    have hmem : [Step.field name] ∈ requests ++ [last]
        ↔ [Step.field name] ∈ requests ∨ last = [.field name] := by
      rw [List.mem_append, List.mem_singleton, eq_comm]
    simp only [hleads, hmem]
    grind

/-- There is an object under a name when a request put something there. -/
theorem entry_eq_nested_iff (hgiven : l.given = []) :
    l.entry name = .nested ↔ ∃ request ∈ l.requests, Leads name request := by
  classical
  rw [entry_eq hgiven]
  split
  · next h => exact ⟨fun _ => h, fun _ => rfl⟩
  · next h =>
    refine ⟨fun heq => ?_, fun hleads => absurd hleads h⟩
    split at heq <;> cases heq

/-- A field that was asked for is there. -/
theorem entry_of_mem (hgiven : l.given = []) {rest : List Step}
    (hmem : Step.field name :: rest ∈ l.requests) :
    l.entry name = .chosen ∨ l.entry name = .nested := by
  classical
  rw [entry_eq hgiven]
  cases rest with
  | nil =>
    rw [if_pos hmem]
    split
    · exact .inr rfl
    · exact .inl rfl
  | cons step rest => exact .inr (if_pos ⟨_, hmem, .field step rest⟩)

/-- A field that is asked for itself only is the end of a request. -/
theorem mem_of_entry_eq_chosen (hgiven : l.given = []) (h : l.entry name = .chosen) :
    [Step.field name] ∈ l.requests := by
  classical
  rw [entry_eq hgiven] at h
  split at h
  · cases h
  split at h
  · next hmem => exact hmem
  · cases h

/-- Under a name that arguments do not replace there is what is left of the requests. -/
theorem below_eq
    (h : name = argumentsName → ∀ args rest, Step.arguments args :: rest ∉ l.requests) :
    l.below name = ⟨child l.given name, l.requests.filterMap (rest? name)⟩ := by
  obtain ⟨given, requests⟩ := l
  have hrun : ∀ (requests : List (List Step)) (done : List (List Step)),
      (name = argumentsName → ∀ args rest, Step.arguments args :: rest ∉ requests) →
        requests.foldl (passDown name) ⟨child given name, done⟩
          = ⟨child given name, done ++ requests.filterMap (rest? name)⟩ := by
    intro requests
    induction requests with
    | nil =>
      intro done _
      rw [List.filterMap_nil, List.append_nil]
      rfl
    | cons request requests ih =>
      intro done h
      have hnext := fun done => ih done fun hname args rest hmem =>
        h hname args rest (List.mem_cons_of_mem _ hmem)
      have hpass : passDown name ⟨child given name, done⟩ request
          = ⟨child given name, done ++ (rest? name request).toList⟩ := by
        cases request with
        | nil => rw [passDown, rest?, Option.toList_none, List.append_nil]
        | cons step rest =>
          cases step with
          | field first =>
            rw [passDown, rest?]
            split
            · rfl
            · rw [Option.toList_none, List.append_nil]
          | arguments args =>
            rw [passDown, rest?, if_neg fun hname => h hname args rest List.mem_cons_self]
            split
            · rfl
            · rw [Option.toList_none, List.append_nil]
      rw [List.foldl_cons, hpass, hnext, List.filterMap_cons, List.append_assoc]
      cases rest? name request <;> rfl
  exact hrun requests [] h

end Level

end Selection

/-! ### Selections are well formed -/

/-- The names in a step are names of the query language, and arguments are ordered. -/
def Step.Named : Step → Prop
  | .field name => Document.IsName name
  | .arguments args => Json.WellFormed args

/-- Every step is named. -/
def Path.Named (p : Path) : Prop := ∀ step ∈ p.steps, step.Named

namespace Selection

open Json

theorem isName_argumentsName : Document.IsName argumentsName :=
  by decide

theorem isName_selectionName : Document.IsName selectionName :=
  by decide

/-- A path with names in it keeps a selection well formed. -/
theorem wellFormed_nest {members : Dict Json} (h : WellFormed members) {request : List Step}
    (hrequest : ∀ step ∈ request, step.Named) : WellFormed (nest members request) := by
  induction request generalizing members with
  | nil => exact h
  | cons step rest ih =>
    have hstep : step.Named := hrequest step List.mem_cons_self
    have hrest : ∀ step ∈ rest, step.Named := fun s hs => hrequest s (List.mem_cons_of_mem _ hs)
    cases step with
    | field name =>
      cases rest with
      | nil =>
        rw [nest_field_nil]
        split
        · exact h
        · exact h.insert hstep trivial trivial
      | cons next rest =>
        have hinner := ih (wellFormed_child h name) hrest
        rw [nest_field_cons]
        exact h.insert hstep hinner.ordered hinner.named
    | arguments args =>
      have hargs : WellFormed args := hstep
      have hwith := h.insert isName_argumentsName hargs.ordered hargs.named
      have hinner := ih (wellFormed_child hwith selectionName) hrest
      rw [nest_arguments]
      exact hwith.insert isName_selectionName hinner.ordered hinner.named

/-- The selection of named paths is well formed. -/
theorem wellFormed_membersOf {paths : List Path} (h : ∀ path ∈ paths, path.Named) :
    WellFormed (membersOf paths) := by
  induction paths using List.reverseRecOn with
  | nil => exact wellFormed_nil
  | append_singleton paths path ih =>
    rw [membersOf_append_singleton]
    refine wellFormed_nest (ih fun p hp => h p (List.mem_append_left _ hp)) ?_
    exact h path (List.mem_append_right _ (List.mem_singleton.2 rfl))

end Selection

end GraphWalk
