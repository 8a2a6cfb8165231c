import GraphWalk.Proofs.Traversal.Following

/-!
# What a step asks for

Of all operations on a traversal only a step asks for anything, and then for one leaf:
the field that it goes to, at the traversal's own path.  Arguments are recorded at the
path.  Everything else leaves the client as it is.

## Main definitions

* `Traversal.request?` — the path that a step asks for, if it asks for any.
* `Traversal.items`, `Traversal.lifted` — the traversals at which a query is made for every item.
* `Access.next` — the traversal that a step leads to.

## Main results

* `Traversal.step_snd`, `Traversal.field_snd`, `Traversal.withArguments_snd` — what becomes of the
  client.
* `Traversal.exists_of_request?` — what is asked for is a field at the traversal's path.
* `Traversal.path_of_mem_next`, `Traversal.path_field` — where an operation leads.
* `Traversal.map_eq`, `Traversal.apply_eq` — queries for every item, made one after the other.
-/

namespace GraphWalk

/-- The traversal that a step leads to, if it does not lead to a leaf. -/
def Access.next : Access → List Traversal
  | .leaf _ => []
  | .branch t => [t]

namespace Traversal

variable {t next : Traversal} {c : Client} {key : String} {path : Path}

/-- The path is asked for when nothing is known under any of the names. -/
def missing? (t : Traversal) (path : Path) (names : List String) : Option Path :=
  if (names.findSome? t.bound.member?).isNone then some path else none

/-- The path that a step asks for, if it asks for any. -/
def request? (t : Traversal) (key : String) (c : Client) : Option Path :=
  match t.bound, c.schema with
  | .array _, _ => none
  | _, some s =>
    if s.isLeaf? (t.path.withField key) = some true then
      t.missing? (t.path.withField key) [key]
    else none
  | _, none =>
    match unmarked? c.marker key with
    | some name => t.missing? (t.path.withField name) [key, name]
    | none => none

/-- The traversals at which a query is made: one for every item of a list, and otherwise the one
itself. -/
def items (t : Traversal) : List Traversal :=
  match t.bound with
  | .array items => items.map fun item => ⟨t.path, item⟩
  | _ => [t]

/-- The traversal without the last key, which named an operation. -/
def lifted (t : Traversal) : Traversal := ⟨t.path.parent, t.bound⟩

/-! ### What becomes of the client -/

theorem leaf_snd (t : Traversal) (path : Path) (names : List String) (c : Client) :
    (t.leaf path names c).2 = c.ask (t.missing? path names).toList := by
  rw [leaf, missing?]
  cases names.findSome? t.bound.member? with
  | some value => rfl
  | none => rfl

/-- **A step asks for a path, or leaves the client as it is.** -/
theorem step_snd (t : Traversal) (key : String) (c : Client) :
    (t.step key c).2 = c.ask (t.request? key c).toList := by
  by_cases hlist : ∃ items, t.bound = .array items
  · obtain ⟨path, bound⟩ := t
    obtain ⟨items, rfl⟩ := hlist
    rfl
  · have haway : ∀ items, t.bound ≠ .array items := fun items hitems => hlist ⟨items, hitems⟩
    rw [request?.eq_def]
    split
    · next _ items hitems => exact absurd hitems (haway items)
    · next s hschema _ =>
      rw [step_of_schema hschema haway, schemaStep]
      split
      · exact leaf_snd ..
      · rfl
    · next hschema _ =>
      rw [step_of_marker hschema haway, markerStep]
      cases unmarked? c.marker key with
      | some name => exact leaf_snd ..
      | none => rfl

theorem field_snd (t : Traversal) (key : String) (c : Client) :
    (t.field key c).2 = c.ask (t.request? key c).toList := by
  rw [field_eq, ← step_snd]
  cases (t.step key c).1 <;> rfl

theorem withArguments_snd (t : Traversal) (args : Dict Json) (c : Client) :
    (t.withArguments args c).2 = (Query.fingerprint t.path args c).2 := rfl

theorem eq_of_missing? {other : Path} {names : List String}
    (h : t.missing? other names = some path) : path = other := by
  rw [missing?] at h
  split at h
  · exact (Option.some.inj h).symm
  · cases h

/-- What a step asks for is a field at the path of the traversal. -/
theorem exists_of_request? (h : t.request? key c = some path) :
    ∃ name, path = t.path.withField name := by
  rw [request?.eq_def] at h
  split at h
  · cases h
  · split at h
    · exact ⟨key, eq_of_missing? h⟩
    · cases h
  · split at h
    · next name _ => exact ⟨name, eq_of_missing? h⟩
    · cases h

/-! ### Where an operation leads -/

theorem leaf_next (t : Traversal) (path : Path) (names : List String) (c : Client) :
    (t.leaf path names c).1.next = [] := by
  rw [leaf]
  cases names.findSome? t.bound.member? <;> rfl

/-- A step to an item stays at the path; any other step that leads on goes along the key. -/
theorem path_of_mem_next (h : next ∈ (t.step key c).1.next) :
    next.path = t.path ∨ next.path = t.path.withField key := by
  by_cases hlist : ∃ items, t.bound = .array items
  · obtain ⟨path, bound⟩ := t
    obtain ⟨items, rfl⟩ := hlist
    have hnext : next = listStep path items key := List.mem_singleton.1 h
    rw [hnext, listStep]
    split
    · exact .inl rfl
    · exact .inr rfl
  · have haway : ∀ items, t.bound ≠ .array items := fun items hitems => hlist ⟨items, hitems⟩
    rcases step_cases haway key c with ⟨path, names, hstep, -⟩ | ⟨hstep, -⟩
    · rw [hstep, leaf_next] at h
      cases h
    · rw [hstep] at h
      have hnext : next = t.branch key := List.mem_singleton.1 h
      exact .inr (hnext ▸ rfl)

/-- A field leads where its step leads, and along the key where the step leads to a leaf. -/
theorem path_field (t : Traversal) (key : String) (c : Client) :
    (t.field key c).1.path = t.path ∨ (t.field key c).1.path = t.path.withField key := by
  rw [field_eq]
  cases haccess : (t.step key c).1 with
  | leaf value => exact .inr rfl
  | branch next =>
    have hnext : next ∈ (t.step key c).1.next := by
      rw [haccess]
      exact List.mem_singleton.2 rfl
    exact path_of_mem_next hnext

theorem path_of_mem_items (h : next ∈ t.items) : next.path = t.path := by
  rw [items] at h
  split at h
  · obtain ⟨item, -, rfl⟩ := List.mem_map.1 h
    rfl
  · rw [List.mem_singleton.1 h]

/-! ### Queries for every item -/

/-- A query for every item is made at one traversal after the other. -/
theorem map_eq {α : Type} (t : Traversal) (f : Traversal → Query α) (c : Client) :
    ((t.map f c).1.toList, (t.map f c).2) = t.items.mapM f c := by
  obtain ⟨path, bound⟩ := t
  cases bound with
  | array items =>
    rw [Traversal.items, List.mapM_map]
    rfl
  | _ => rfl

theorem apply_eq {α : Type} (t : Traversal) (f : Traversal → Query α) (c : Client) :
    ((t.apply f c).1.toList, (t.apply f c).2) = t.lifted.items.mapM f c :=
  t.lifted.map_eq f c

end Traversal

end GraphWalk
