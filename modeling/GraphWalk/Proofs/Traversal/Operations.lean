import GraphWalk.Proofs.Traversal.Asking

/-!
# Operations

The last key of a path may name an operation, such as `map`: a query is then made for every
item of a list, at the path without that key.  The path goes back over the key, but what is
bound does not: away from lists the query is made with what is known of a member of the
operation's name.  So it is made at the traversal before the operation if this is a list, or
if nothing was known there at all.

## Main definitions

* `Traversal.NamesOperation` — a key that can name an operation.
* `Traversal.operand` — where the query of an operation is made.

## Main results

* `Traversal.field_of_operation` — what the key of an operation leads to.
* `Traversal.operand_eq_self_iff` — when the query is made at the traversal itself.
* `Traversal.apply_operation_iff` — **an operation is a query for every item exactly there.**
* `Traversal.known_leaf_asked_again` — elsewhere a leaf that is known is asked for once more.
-/

namespace GraphWalk

namespace Traversal

variable {t : Traversal} {op : String} {c : Client}

/-- The client takes the key for a leaf's. -/
def leadsToLeaf (t : Traversal) (key : String) (c : Client) : Bool :=
  match c.schema with
  | some s => s.isLeaf? (t.path.withField key) == some true
  | none => (unmarked? c.marker key).isSome

/-- The key can name an operation.  From a list it is no item's number, and from anything else it
leads to no leaf. -/
def NamesOperation (t : Traversal) (op : String) (c : Client) : Prop :=
  if t.isList then itemIndex? op = none else t.leadsToLeaf op c = false

instance (t : Traversal) (op : String) (c : Client) : Decidable (t.NamesOperation op c) :=
  inferInstanceAs <| Decidable <|
    if t.isList then itemIndex? op = none else t.leadsToLeaf op c = false

/-- Where the query of an operation is made: at a list as it is, and otherwise at the same path with
what is known of a member of the operation's name. -/
def operand (t : Traversal) (op : String) : Traversal :=
  if t.isList then t else ⟨t.path, t.boundMember op⟩

/-! ### The key of an operation -/

theorem isList_iff : t.isList = true ↔ ∃ items, t.bound = .array items := by
  rw [isList]
  cases t.bound <;> simp [Json.isArray]

/-- Away from lists a key that leads to no leaf leads to a member. -/
theorem step_of_leadsToLeaf_eq_false (hlist : t.isList = false) (h : t.leadsToLeaf op c = false) :
    t.step op c = (.branch (t.branch op), c) := by
  have haway : ∀ items, t.bound ≠ .array items := fun items hitems =>
    Bool.false_ne_true (hlist.symm.trans (isList_iff.2 ⟨items, hitems⟩))
  rw [leadsToLeaf] at h
  cases hschema : c.schema with
  | some s =>
    rw [hschema] at h
    rw [step_of_schema hschema haway, schemaStep, if_neg (beq_eq_false_iff_ne.1 h)]
    rfl
  | none =>
    rw [hschema] at h
    have hunmarked : unmarked? c.marker op = none :=
      Option.not_isSome_iff_eq_none.1 (Bool.eq_false_iff.1 h)
    rw [step_of_marker hschema haway, markerStep, hunmarked]
    rfl

/-- The key of an operation asks for nothing.  What is bound behind it is what the query of the
operation is made with. -/
theorem field_of_operation (h : t.NamesOperation op c) :
    t.field op c = (⟨t.path.withField op, (t.operand op).bound⟩, c) := by
  rw [NamesOperation] at h
  rw [operand, field_eq]
  split at h
  · next hlist =>
    obtain ⟨path, bound⟩ := t
    obtain ⟨items, rfl⟩ := isList_iff.1 hlist
    have hstep : (⟨path, .array items⟩ : Traversal).step op c
        = (.branch ⟨path.withField op, .array items⟩, c) := by
      show (Access.branch (listStep path items op), c) = _
      rw [listStep, h]
    rw [hstep, if_pos hlist]
  · next hlist =>
    rw [step_of_leadsToLeaf_eq_false (Bool.eq_false_iff.2 hlist) h, if_neg hlist]
    rfl

/-- An operation is a query for every item of its operand. -/
theorem apply_of_operation {α : Type} (h : t.NamesOperation op c) (f : Traversal → Query α) :
    (t.field op >>= fun next => next.apply f) c = (t.operand op).map f c := by
  have hback : (⟨(t.path.withField op).parent, (t.operand op).bound⟩ : Traversal)
      = t.operand op := by
    rw [Path.parent_withField, operand]
    split <;> rfl
  show Traversal.apply (t.field op c).1 f (t.field op c).2 = _
  rw [field_of_operation h, apply_eq_map, hback]

/-! ### The traversal before the operation -/

/-- No value is bound to a member of itself. -/
theorem boundMember_eq_bound_iff (op : String) : t.boundMember op = t.bound ↔ t.bound = .null := by
  rw [boundMember]
  constructor
  · intro h
    cases hbound : t.bound with
    | object members =>
      rw [hbound, Json.member?_object] at h
      cases hmember : Dict.get? members op with
      | none =>
        rw [hmember] at h
        cases h
      | some value =>
        rw [hmember, Option.getD_some] at h
        have hsmaller := Json.sizeOf_lt_of_get?_eq_some hmember
        rw [h, Json.object.sizeOf_spec] at hsmaller
        omega
    | null => rfl
    | _ =>
      rw [hbound] at h
      cases h
  · intro hbound
    rw [hbound]
    rfl

/-- The operand is the traversal itself if this is a list, or if nothing is known there. -/
theorem operand_eq_self_iff (op : String) :
    t.operand op = t ↔ t.isList = true ∨ t.bound = .null := by
  rw [operand]
  split
  · next hlist => exact iff_of_true rfl (.inl hlist)
  · next hlist =>
    rw [or_iff_right hlist, ← boundMember_eq_bound_iff op]
    exact ⟨fun h => congrArg bound h, fun h => congrArg (Traversal.mk t.path) h⟩

/-- Away from lists the one traversal at which a query is made tells the traversals apart. -/
theorem eq_of_map_pure {other : Traversal} (hlist : t.isList = false)
    (h : (other.map pure c).1 = ((t.map pure : Query (Applied Traversal)) c).1) : other = t := by
  have hsingle : ((t.map pure : Query (Applied Traversal)) c).1 = .single t := by
    obtain ⟨path, bound⟩ := t
    cases bound with
    | array items => cases hlist
    | _ => rfl
  rw [hsingle] at h
  obtain ⟨path, bound⟩ := other
  cases bound with
  | array items => cases h
  | _ => exact Applied.single.inj h

/-- **An operation is a query for every item of the traversal before it exactly if this is a list,
or if nothing is known there.**

In any case the query is made at the operand and nowhere else, with the same results, in the same
order, and asking for the same: at every item of a list, and away from lists once at the traversal's
own path, with what is known of a member of the operation's name. -/
theorem apply_operation_iff (h : t.NamesOperation op c) :
    (∀ (α : Type) (f : Traversal → Query α),
      (t.field op >>= fun next => next.apply f) c = (t.operand op).map f c) ∧
    ((∀ (α : Type) (f : Traversal → Query α),
      (t.field op >>= fun next => next.apply f) c = t.map f c) ↔
        t.isList = true ∨ t.bound = .null) := by
  refine ⟨fun α f => apply_of_operation h f, ?_⟩
  rw [← operand_eq_self_iff op]
  constructor
  · intro hsame
    cases hlist : t.isList with
    | true => exact if_pos hlist
    | false =>
      have hpure := (apply_of_operation h pure).symm.trans (hsame Traversal pure)
      exact eq_of_map_pure hlist (congrArg Prod.fst hpure)
  · intro hself α f
    rw [apply_of_operation h f, hself]

/-! ### A list and an object -/

/-- Two products in a list. -/
def listedProducts : Traversal :=
  ⟨.ofFields ["products"],
    .array [.object [("$title", .string "a")], .object [("$title", .string "b")]]⟩

/-- An item of which the name is known. -/
def namedItem : Traversal := ⟨.ofFields ["item"], .object [("$name", .string "five")]⟩

/-- The products are mapped with the operation as they are without it. -/
theorem apply_operation_iff_products :
    listedProducts.NamesOperation "map" {} ∧
      (listedProducts.field "map" >>= fun next => next.apply (·.value "$title")) {}
        = (.each [some (.string "a"), some (.string "b")], {}) := by
  have hnames : listedProducts.NamesOperation "map" {} := by decide
  refine ⟨hnames, ?_⟩
  rw [(apply_operation_iff hnames).2.2 (.inl rfl)]
  rfl

/-- What comes of asking for the name of the item through the operation. -/
def nameThroughOperation : Applied (Option Json) × Client :=
  (namedItem.field "map" >>= fun next => next.apply (·.value "$name")) {}

/-- The name of the item is known, but through the operation it is asked for once more. -/
theorem known_leaf_asked_again :
    (namedItem.value "$name" {} = (some (.string "five"), {}) ∧
      nameThroughOperation.1.toList = [none] ∧
      nameThroughOperation.2.pendingPaths = [.ofFields ["item", "name"]]) ∧
    ¬∀ (t : Traversal) (op : String) (c : Client), t.NamesOperation op c →
      ∀ (α : Type) (f : Traversal → Query α),
        (t.field op >>= fun next => next.apply f) c = t.map f c := by
  refine ⟨⟨rfl, rfl, rfl⟩, fun hsame => ?_⟩
  have hname := hsame namedItem "map" {} (by decide) _ (·.value "$name")
  -- through the operation there is no name, and without it there is one
  have hmissing : nameThroughOperation.1.toList = [none] := rfl
  rw [nameThroughOperation, hname] at hmissing
  cases hmissing

end Traversal

end GraphWalk
