import GraphWalk.Proofs.Traversal.Operations

/-!
# Where keys lead

From a list a key leads to an item, or else it is taken for the name of an operation and
put behind the path unseen.  From anything else a step goes on behind its key unless this
leads to a leaf.  A field goes on behind its key in any case.

## Main definitions

* `Traversal.SelectsItem` — a key that is the number of an item.

## Main results

* `Traversal.map_path_next`, `Traversal.path_field_eq` — **where a step and a field go on.**
* `Traversal.request?_of_schema`, `Traversal.request?_of_marker` — what a step asks for.
-/

namespace GraphWalk

namespace Traversal

variable {t : Traversal} {key : String} {c c' : Client} {s : Schema} {path : Path}

/-- The key is the number of an item of the list. -/
def SelectsItem (t : Traversal) (key : String) : Prop :=
  t.isList = true ∧ (itemIndex? key).isSome = true

instance (t : Traversal) (key : String) : Decidable (t.SelectsItem key) :=
  inferInstanceAs (Decidable (_ ∧ _))

/-- From a list a step stays at the path, or goes on behind the key whatever this leads to. -/
theorem step_of_isList (hlist : t.isList = true) (key : String) (c : Client) :
    ∃ bound, t.step key c
      = (.branch ⟨if t.SelectsItem key then t.path else t.path.withField key, bound⟩, c) := by
  obtain ⟨path, bound⟩ := t
  obtain ⟨items, rfl⟩ := isList_iff.1 hlist
  have hstep : (⟨path, .array items⟩ : Traversal).step key c
      = (.branch (listStep path items key), c) := rfl
  rw [hstep, listStep]
  cases hindex : itemIndex? key with
  | some index =>
    rw [if_pos ⟨rfl, by rw [hindex]; rfl⟩]
    exact ⟨_, rfl⟩
  | none =>
    rw [if_neg fun h => by rw [SelectsItem, hindex] at h; exact Bool.false_ne_true h.2]
    exact ⟨_, rfl⟩

/-- Away from lists a step by a key that leads to a leaf leads to it. -/
theorem step_of_leadsToLeaf (hlist : t.isList = false) (h : t.leadsToLeaf key c = true) :
    ∃ value, (t.step key c).1 = .leaf value := by
  have haway : ∀ items, t.bound ≠ .array items := fun items hitems =>
    Bool.false_ne_true (hlist.symm.trans (isList_iff.2 ⟨items, hitems⟩))
  have hleaf : ∀ path names, ∃ value, (t.leaf path names c).1 = .leaf value := by
    intro path names
    rw [leaf]
    cases names.findSome? t.bound.member? with
    | some value => exact ⟨some value, rfl⟩
    | none => exact ⟨none, rfl⟩
  rw [leadsToLeaf] at h
  cases hschema : c.schema with
  | some s =>
    rw [hschema] at h
    rw [step_of_schema hschema haway, schemaStep, if_pos (beq_iff_eq.1 h)]
    exact hleaf _ _
  | none =>
    rw [hschema] at h
    obtain ⟨name, hname⟩ := Option.isSome_iff_exists.1 h
    rw [step_of_marker hschema haway, markerStep, hname]
    exact hleaf _ _

/-- **Where a step goes on**: at the same path from a list to its item, nowhere from a leaf, and
otherwise behind the key. -/
theorem map_path_next (t : Traversal) (key : String) (c : Client) :
    (t.step key c).1.next.map Traversal.path
      = if t.SelectsItem key then [t.path]
        else if t.isList = false ∧ t.leadsToLeaf key c = true then []
        else [t.path.withField key] := by
  cases hlist : t.isList with
  | true =>
    obtain ⟨bound, hstep⟩ := step_of_isList hlist key c
    rw [hstep]
    by_cases hitem : t.SelectsItem key
    · simp only [if_pos hitem]
      rfl
    · simp only [if_neg hitem, Bool.true_eq_false, false_and, if_false]
      rfl
  | false =>
    rw [if_neg fun h : t.SelectsItem key => Bool.false_ne_true (hlist.symm.trans h.1)]
    cases hleaf : t.leadsToLeaf key c with
    | true =>
      obtain ⟨value, hstep⟩ := step_of_leadsToLeaf hlist hleaf
      rw [hstep]
      rfl
    | false =>
      rw [step_of_leadsToLeaf_eq_false hlist hleaf]
      rfl

/-- **A field goes on behind its key**, leaf or not, unless it goes to an item. -/
theorem path_field_eq (t : Traversal) (key : String) (c : Client) :
    (t.field key c).1.path = if t.SelectsItem key then t.path else t.path.withField key := by
  have hpaths := t.map_path_next key c
  rw [field_eq]
  cases haccess : (t.step key c).1 with
  | leaf value =>
    -- no item is a leaf
    rw [haccess] at hpaths
    rw [if_neg fun hitem => by rw [if_pos hitem] at hpaths; cases hpaths]
  | branch next =>
    rw [haccess] at hpaths
    show next.path = _
    split
    · next hitem =>
      rw [if_pos hitem] at hpaths
      exact (List.cons.inj hpaths).1
    · next hitem =>
      rw [if_neg hitem] at hpaths
      split at hpaths
      · cases hpaths
      · exact (List.cons.inj hpaths).1

/-! ### What tells the leaves -/

/-- Where a key leads is told by the schema or the marker. -/
theorem leadsToLeaf_congr (hschema : c.schema = c'.schema) (hmarker : c.marker = c'.marker)
    (t : Traversal) (key : String) : t.leadsToLeaf key c = t.leadsToLeaf key c' := by
  rw [leadsToLeaf, leadsToLeaf, hschema, hmarker]

theorem request?_congr (hschema : c.schema = c'.schema) (hmarker : c.marker = c'.marker)
    (t : Traversal) (key : String) : t.request? key c = t.request? key c' := by
  rw [request?, request?, hschema, hmarker]

/-- Where a schema tells the leaves, a step asks for the leaf to which its key leads. -/
theorem request?_of_schema (hschema : c.schema = some s) (h : t.request? key c = some path) :
    path = t.path.withField key ∧ s.isLeaf? path = some true := by
  rw [request?.eq_def, hschema] at h
  split at h
  · cases h
  · next found heq _ =>
    obtain rfl : s = found := Option.some.inj heq
    split at h
    · next hleaf =>
      obtain rfl := eq_of_missing? h
      exact ⟨rfl, hleaf⟩
    · cases h
  · next heq _ => cases heq

/-- Where a marker tells the leaves, a step asks for what its key names behind the marker. -/
theorem request?_of_marker (hschema : c.schema = none) (h : t.request? key c = some path) :
    ∃ name, unmarked? c.marker key = some name ∧ path = t.path.withField name := by
  rw [request?.eq_def, hschema] at h
  split at h
  · cases h
  · next heq _ => cases heq
  · split at h
    · next name hname => exact ⟨name, hname, eq_of_missing? h⟩
    · cases h

end Traversal

end GraphWalk
