import GraphWalk.Proofs.Json.Places
import GraphWalk.Proofs.Traversal.Walk

/-!
# Following fields to where nothing is known

A walk follows some fields if its keys are the fields one after the other, with the
number of an item wherever a list is met.  Where the state has nothing at or below the
fields such a walk finds nothing, whatever tells the leaves, and so does every walk that
goes on from there.

## Main definitions

* `Json.Follows` — keys that lead along some fields.
* `Client.leafMarker` — the marker that tells a client's leaves, if no schema does.

## Main results

* `Traversal.walk_of_null` — from an unbound traversal every walk finds nothing.
* `Traversal.walk_of_lacks` — nor does a walk along fields at which there is nothing.
-/

namespace GraphWalk

/-- Keys that lead from a value along some fields.  The number of an item comes wherever a list is
met; the last field is named in either spelling. -/
inductive Json.Follows (marker : Option Char) : Json → List String → List String → Prop
  | last {v : Json} {field key : String} (hlist : ∀ items, v ≠ .array items)
      (hkey : Spelling marker field key) : Follows marker v [field] [key]
  | item {items : List Json} {index : Nat} {key : String} {fields keys : List String}
      (hkey : Traversal.itemIndex? key = some index)
      (rest : Follows marker (items[index]?.getD .null) fields keys) :
      Follows marker (.array items) fields (key :: keys)
  | field {v : Json} {field next : String} {fields keys : List String}
      (hlist : ∀ items, v ≠ .array items)
      (rest : Follows marker ((v.member? field).getD .null) (next :: fields) keys) :
      Follows marker v (field :: next :: fields) (field :: keys)

theorem Json.Follows.ne_nil {marker : Option Char} {v : Json} {fields keys : List String}
    (h : v.Follows marker fields keys) : fields ≠ [] ∧ keys ≠ [] := by
  induction h with
  | last => exact ⟨List.cons_ne_nil _ _, List.cons_ne_nil _ _⟩
  | item _ _ ih => exact ⟨ih.1, List.cons_ne_nil _ _⟩
  | field => exact ⟨List.cons_ne_nil _ _, List.cons_ne_nil _ _⟩

/-- The marker that tells a client's leaves, if no schema does. -/
def Client.leafMarker (c : Client) : Option Char :=
  if c.schema.isNone then some c.marker else none

namespace Traversal

variable {c : Client} {t : Traversal} {key field : String}

/-- A step finds nothing: a leaf without a value, or a traversal that is not bound. -/
inductive Misses : Access → Prop
  | leaf : Misses (.leaf none)
  | branch (path : Path) : Misses (.branch ⟨path, .null⟩)

theorem Misses.value?_eq_none {access : Access} (h : Misses access) : access.value? = none := by
  cases h <;> rfl

/-! ### One step -/

/-- A leaf that has a value under none of its names is asked for. -/
theorem leaf_of_unknown {names : List String} (h : ∀ name ∈ names, t.bound.member? name = none)
    (path : Path) : t.leaf path names c = (.leaf none, (Query.register path c).2) := by
  rw [leaf, List.findSome?_eq_none_iff.2 h]
  rfl

theorem branch_of_unknown (h : t.bound.member? key = none) :
    t.branch key = ⟨t.path.withField key, .null⟩ := by
  rw [branch, boundMember, h]
  rfl

/-- A leaf changes the batcher at most. -/
theorem leaf_client (t : Traversal) (path : Path) (names : List String) (c : Client) :
    ∃ batcher, (t.leaf path names c).2 = { c with batcher } := by
  rw [leaf]
  cases names.findSome? t.bound.member? with
  | some value => exact ⟨c.batcher, rfl⟩
  | none => exact ⟨_, rfl⟩

/-- Away from lists the marker tells what a step leads to, if no schema does. -/
theorem step_of_marker (hschema : c.schema = none) (h : ∀ items, t.bound ≠ .array items)
    (key : String) : t.step key c = markerStep c.marker t key c := by
  obtain ⟨path, bound⟩ := t
  cases bound with
  | array items => exact absurd rfl (h items)
  | _ =>
    simp only [step, bind, StateT.bind, get, getThe, MonadStateOf.get, StateT.get, pure, hschema]

/-- **What a step comes to away from lists.**  To a leaf, known under names which all spell the
field that the key spells, or along the field that the key is. -/
theorem step_cases (hlist : ∀ items, t.bound ≠ .array items) (key : String) (c : Client) :
    (∃ path names, t.step key c = t.leaf path names c ∧
      (unmarked? c.marker key = none → names = [key]) ∧
      ∀ field, unmarked? c.marker field = none → Spelling c.leafMarker field key →
        ∀ name ∈ names, Spelling c.leafMarker field name) ∨
    (t.step key c = (.branch (t.branch key), c) ∧
      ∀ field, Spelling c.leafMarker field key → key = field) := by
  cases hschema : c.schema with
  | some s =>
    have hmarker : c.leafMarker = none := by
      rw [Client.leafMarker, hschema]
      rfl
    rw [hmarker, step_of_schema hschema hlist, schemaStep]
    by_cases hleaf : s.isLeaf? (t.path.withField key) = some true
    · rw [if_pos hleaf]
      refine .inl ⟨_, [key], rfl, fun _ => rfl, fun field _ hkey name hname => ?_⟩
      rw [List.mem_singleton.1 hname]
      exact hkey
    · rw [if_neg hleaf]
      exact .inr ⟨rfl, fun field hkey => hkey.resolve_right fun hmarked => by cases hmarked⟩
  | none =>
    have hmarker : c.leafMarker = some c.marker := by
      rw [Client.leafMarker, hschema]
      rfl
    rw [hmarker, step_of_marker hschema hlist, markerStep]
    cases hunmarked : unmarked? c.marker key with
    | some other =>
      refine .inl ⟨_, [key, other], rfl, (fun hnone => by cases hnone),
        fun field hfield hkey name hname => ?_⟩
      -- the key is not the field itself, which has no marker in front
      rcases hkey with rfl | hmarked
      · rw [hfield] at hunmarked
        cases hunmarked
      · obtain rfl : marked c.marker field = key := Option.some.inj hmarked
        rw [unmarked?_marked] at hunmarked
        obtain rfl : field = other := Option.some.inj hunmarked
        rcases List.mem_pair.1 hname with rfl | rfl
        · exact .inr rfl
        · exact .inl rfl
    | none =>
      refine .inr ⟨rfl, fun field hkey => hkey.resolve_right fun hmarked => ?_⟩
      rw [← Option.some.inj hmarked, unmarked?_marked] at hunmarked
      cases hunmarked

/-- A step changes the batcher at most. -/
theorem step_client (t : Traversal) (key : String) (c : Client) :
    ∃ batcher, (t.step key c).2 = { c with batcher } := by
  by_cases hlist : ∀ items, t.bound ≠ .array items
  · rcases step_cases hlist key c with ⟨path, names, hstep, -⟩ | ⟨hstep, -⟩
    · rw [hstep]
      exact t.leaf_client path names c
    · rw [hstep]
      exact ⟨c.batcher, rfl⟩
  · obtain ⟨items, hitems⟩ := not_forall_not.1 hlist
    obtain ⟨path, bound⟩ := t
    obtain rfl : bound = .array items := hitems
    exact ⟨c.batcher, rfl⟩

/-- A step to a field of which nothing is known in either spelling finds nothing. -/
theorem misses_step (hlist : ∀ items, t.bound ≠ .array items)
    (hkey : Spelling c.leafMarker field key) (hfield : unmarked? c.marker field = none)
    (hnone : ∀ name, Spelling c.leafMarker field name → t.bound.member? name = none) :
    Misses (t.step key c).1 := by
  rcases step_cases hlist key c with ⟨path, names, hstep, -, hnames⟩ | ⟨hstep, -⟩
  · rw [hstep, leaf_of_unknown fun name hname => hnone name (hnames field hfield hkey name hname)]
    exact .leaf
  · rw [hstep, branch_of_unknown (hnone key hkey)]
    exact .branch _

/-- From an unbound traversal every step finds nothing. -/
theorem misses_step_of_null (hbound : t.bound = .null) (key : String) (c : Client) :
    Misses (t.step key c).1 := by
  have hnone : ∀ name, t.bound.member? name = none := by
    intro name
    rw [hbound]
    rfl
  have hlist : ∀ items, t.bound ≠ .array items := by
    intro items hitems
    rw [hbound] at hitems
    cases hitems
  rcases step_cases hlist key c with ⟨path, names, hstep, -⟩ | ⟨hstep, -⟩
  · rw [hstep, leaf_of_unknown fun name _ => hnone name]
    exact .leaf
  · rw [hstep, branch_of_unknown (hnone key)]
    exact .branch _

/-! ### Steps to go on from -/

/-- A field goes on from what a step leads to. -/
theorem field_eq (t : Traversal) (key : String) (c : Client) :
    t.field key c
      = match (t.step key c).1 with
        | .branch next => (next, (t.step key c).2)
        | .leaf value => (⟨t.path.withField key, value.getD .null⟩, (t.step key c).2) := by
  simp only [field, bind, StateT.bind]
  rcases t.step key c with ⟨access, c'⟩
  cases access <;> rfl

/-- What a step finds nothing at is not bound afterwards. -/
theorem bound_field_of_misses (h : Misses (t.step key c).1) : (t.field key c).1.bound = .null := by
  rw [field_eq]
  rcases hstep : t.step key c with ⟨access, c'⟩
  rw [hstep] at h
  cases h <;> rfl

theorem field_client (t : Traversal) (key : String) (c : Client) :
    ∃ batcher, (t.field key c).2 = { c with batcher } := by
  obtain ⟨batcher, hstep⟩ := t.step_client key c
  refine ⟨batcher, ?_⟩
  rw [field_eq, ← hstep]
  cases (t.step key c).1 <;> rfl

/-- Along a field a traversal is bound to what is known there, leaf or not. -/
theorem bound_field (hlist : ∀ items, t.bound ≠ .array items)
    (hfield : unmarked? c.marker field = none) :
    (t.field field c).1.bound = (t.bound.member? field).getD .null := by
  rw [field_eq]
  rcases step_cases hlist field c with ⟨path, names, hstep, hnames, -⟩ | ⟨hstep, -⟩
  · obtain rfl := hnames hfield
    rw [hstep, leaf_singleton]
    cases t.bound.member? field <;> rfl
  · rw [hstep]
    rfl

/-! ### Walks -/

theorem walk_cons (t : Traversal) (key : String) {keys : List String} (hkeys : keys ≠ [])
    (c : Client) :
    t.walk (key :: keys) c = (t.field key c).1.walk keys (t.field key c).2 := by
  cases keys with
  | nil => exact absurd rfl hkeys
  | cons next keys => rfl

/-- From an unbound traversal every walk finds nothing. -/
theorem walk_of_null (hbound : t.bound = .null) (keys : List String) (c : Client) :
    (t.walk keys c).1.value? = none := by
  induction keys generalizing t c with
  | nil =>
    show (Access.branch t).value? = none
    rw [Access.value?, hbound]
    rfl
  | cons key keys ih =>
    have hstep := misses_step_of_null hbound key c
    by_cases hkeys : keys = []
    · subst hkeys
      exact hstep.value?_eq_none
    · rw [walk_cons t key hkeys]
      exact ih (bound_field_of_misses hstep) _

/-- **A walk along fields at which there is nothing finds nothing, however it goes on from
there.** -/
theorem walk_of_lacks {v : Json} {fields keys : List String}
    (hfollows : v.Follows c.leafMarker fields keys) (hbound : t.bound = v)
    (hlacks : v.Lacks c.leafMarker fields)
    (hfields : ∀ field ∈ fields, unmarked? c.marker field = none) (more : List String) :
    (t.walk (keys ++ more) c).1.value? = none := by
  generalize hmarker : c.leafMarker = marker at hfollows hlacks
  -- each step leads to a value that lacks what is left of the fields
  induction hfollows generalizing t c with
  | @last v field key hlist hkey =>
    subst hbound hmarker
    -- the walk misses here at the latest, and what goes on from there is not bound
    have hstep : Misses (t.step key c).1 := by
      refine misses_step hlist hkey (hfields field List.mem_cons_self) ?_
      intro name hname
      exact hlacks.member?_eq_none hname
    by_cases hmore : more = []
    · subst hmore
      exact hstep.value?_eq_none
    · rw [List.singleton_append, walk_cons t key hmore]
      exact walk_of_null (bound_field_of_misses hstep) more _
  | @item items index key fields keys hkey rest ih =>
    obtain ⟨hne, hkeys⟩ := rest.ne_nil
    obtain ⟨field, fields, rfl⟩ := List.exists_cons_of_ne_nil hne
    -- entering an item uses no field up
    have hstep : t.field key c = (⟨t.path, items[index]?.getD .null⟩, c) := by
      obtain ⟨path, bound⟩ := t
      obtain rfl : bound = .array items := hbound
      show (listStep path items key, c) = _
      rw [listStep, hkey]
    rw [List.cons_append, walk_cons t key (List.append_ne_nil_of_left_ne_nil hkeys _), hstep]
    exact ih rfl hfields hmarker (hlacks.item index)
  | @field v field next fields keys hlist rest ih =>
    subst hbound
    have hfield := hfields field List.mem_cons_self
    obtain ⟨batcher, hclient⟩ := t.field_client field c
    rw [List.cons_append, walk_cons t field (List.append_ne_nil_of_left_ne_nil rest.ne_nil.2 _),
      hclient]
    exact ih (bound_field hlist hfield)
      (fun other hother => hfields other (List.mem_cons_of_mem _ hother)) hmarker hlacks.member

end Traversal

end GraphWalk
