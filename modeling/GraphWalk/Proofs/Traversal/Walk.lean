import GraphWalk.Proofs.Batch.Requests
import GraphWalk.Proofs.Json.Merging
import GraphWalk.Proofs.Schema.FieldNames
import GraphWalk.Traversal

/-!
# Walks to a leaf

Where a schema tells the leaves, a walk to a leaf meets no request on its way: it
answers with the value that the state has at the leaf's fields, or asks for the path of
these fields when the state has none.  Several walks from the root, one after the other,
therefore read one state and ask for what is missing from it.

## Main definitions

* `Path.extend` — a path with some more fields.
* `Json.ClearTo` — no list stands on the way to a place.
* `Traversal.walkAll` — walks from the root.

## Main results

* `Traversal.walk_leaf` — what a walk to a leaf comes to.
* `Traversal.walkAll_leaves` — what several of them come to.
-/

namespace GraphWalk

/-- Some fields further. -/
def Path.extend (p : Path) (names : List String) : Path := ⟨p.steps ++ names.map .field⟩

namespace Path

theorem extend_withField (p : Path) (name : String) (names : List String) :
    (p.withField name).extend names = p.extend (name :: names) := by
  rw [extend, withField, List.append_assoc]
  rfl

theorem extend_singleton (p : Path) (name : String) : p.extend [name] = p.withField name := rfl

end Path

/-- No list stands on the way to a place.  One may stand at the place itself. -/
def Json.ClearTo (v : Json) (names : List String) : Prop :=
  ∀ init more items, names = init ++ more → more ≠ [] → v.at? init ≠ some (.array items)

/-- On the way to something known there are objects only. -/
theorem Json.clearTo_of_at? {v w : Json} {names : List String} (h : v.at? names = some w) :
    v.ClearTo names := by
  rintro init more items rfl hmore hlist
  obtain ⟨members, hmembers⟩ := exists_object_of_at?_append h hmore
  rw [hmembers] at hlist
  cases hlist

namespace Client

/-- Some paths are asked for. -/
def ask (c : Client) (paths : List Path) : Client :=
  { c with batcher := c.batcher.registerAll paths }

@[simp] theorem state_ask (c : Client) (paths : List Path) : (c.ask paths).state = c.state :=
  (c.batcher.registerAll_frame paths).1

theorem ask_append (c : Client) (paths more : List Path) :
    ask c (paths ++ more) = ask (c.ask paths) more :=
  congrArg (fun b => { c with batcher := b }) (c.batcher.registerAll_append paths more)

end Client

namespace Traversal

variable {s : Schema} {c : Client} {t : Traversal}

/-- What is bound to a member is what is known below it. -/
theorem at?_boundMember (t : Traversal) (name : String) {names : List String} (h : names ≠ []) :
    (t.boundMember name).at? names = t.bound.at? (name :: names) := by
  rw [Json.at?_cons, boundMember]
  cases t.bound.member? name with
  | some value => rfl
  | none =>
    cases names with
    | nil => exact absurd rfl h
    | cons next names => rfl

/-- No list stands on the way from a member either. -/
theorem clearTo_boundMember {name : String} {names : List String}
    (h : t.bound.ClearTo (name :: names)) : (t.boundMember name).ClearTo names := by
  rintro init more items rfl hmore hlist
  refine h (name :: init) more items rfl hmore ?_
  cases init with
  | cons next init => exact (at?_boundMember t name (List.cons_ne_nil _ _)).symm.trans hlist
  | nil =>
    rw [Json.at?_nil, boundMember] at hlist
    rw [Json.at?_cons]
    cases hmember : t.bound.member? name with
    | none =>
      rw [hmember] at hlist
      cases hlist
    | some value =>
      rw [hmember] at hlist
      exact (Json.at?_nil value).trans hlist

/-- A leaf answers with its value, and is asked for when it has none. -/
theorem leaf_singleton (t : Traversal) (path : Path) (name : String) (c : Client) :
    t.leaf path [name] c
      = match t.bound.member? name with
        | some value => (.leaf (some value), c)
        | none => (.leaf none, (Query.register path c).2) := by
  rw [leaf, List.findSome?_cons, List.findSome?_nil]
  cases t.bound.member? name <;> rfl

/-- Away from lists the schema tells what a step leads to. -/
theorem step_of_schema (hschema : c.schema = some s) (h : ∀ items, t.bound ≠ .array items)
    (name : String) : t.step name c = schemaStep s t name c := by
  obtain ⟨path, bound⟩ := t
  cases bound with
  | array items => exact absurd rfl (h items)
  | _ =>
    simp only [step, bind, StateT.bind, get, getThe, MonadStateOf.get, StateT.get, pure, hschema]

/-- What a step comes to on the way to a leaf. -/
theorem field_of_branch (hschema : c.schema = some s) (h : ∀ items, t.bound ≠ .array items)
    {name : String} (hbranch : s.isLeaf? (t.path.withField name) ≠ some true) :
    t.field name c = (t.branch name, c) := by
  have hstep : t.step name c = (.branch (t.branch name), c) := by
    rw [step_of_schema hschema h, schemaStep, if_neg hbranch]
    rfl
  simp only [field, bind, StateT.bind, hstep]
  rfl

/-- **What a walk to a leaf comes to.**  It answers with what is known at the leaf, and asks for the
path when nothing is. -/
theorem walk_leaf (hschema : c.schema = some s) {names : List String} (hne : names ≠ [])
    (hleaf : s.isLeaf? (t.path.extend names) = some true)
    (hproper : ∀ init more, names = init ++ more → more ≠ [] →
      s.isLeaf? (t.path.extend init) ≠ some true)
    (hclear : t.bound.ClearTo names) :
    t.walk names c
      = match t.bound.at? names with
        | some value => (.leaf (some value), c)
        | none => (.leaf none, (Query.register (t.path.extend names) c).2) := by
  induction names generalizing t with
  | nil => exact absurd rfl hne
  | cons name names ih =>
    have hlist : ∀ items, t.bound ≠ .array items := fun items h =>
      hclear [] _ items rfl (List.cons_ne_nil _ _) (h ▸ Json.at?_nil _)
    cases names with
    | nil =>
      rw [walk, step_of_schema hschema hlist, schemaStep, ← Path.extend_singleton,
        if_pos hleaf, leaf_singleton, Json.at?_cons]
      cases t.bound.member? name with
      | none => rfl
      | some value =>
        rw [Option.bind_some, Json.at?_nil]
    | cons next names =>
      have hbranch : s.isLeaf? (t.path.withField name) ≠ some true :=
        hproper [name] _ rfl (List.cons_ne_nil _ _)
      have hwalk : t.walk (name :: next :: names) c = (t.branch name).walk (next :: names) c := by
        show (Traversal.walk (t.field name c).1 (next :: names)) (t.field name c).2 = _
        rw [field_of_branch hschema hlist hbranch]
      have hpath : ∀ rest, (t.branch name).path.extend rest = t.path.extend (name :: rest) :=
        Path.extend_withField t.path name
      rw [hwalk, ih (List.cons_ne_nil _ _) ?_ ?_ (clearTo_boundMember hclear), hpath,
        show (t.branch name).bound = t.boundMember name from rfl,
        at?_boundMember t name (List.cons_ne_nil _ _)]
      · rw [hpath]
        exact hleaf
      · intro init more hsplit hmore
        rw [hpath]
        exact hproper (name :: init) more (congrArg _ hsplit) hmore

/-! ### Several walks from the root -/

/-- Walks from the root, one after the other. -/
def walkAll (paths : List (List String)) : Query (List Access) :=
  paths.mapM fun names => do (← get).query.walk names

/-- The paths of fields at which nothing is known. -/
def missing (known : Json) (paths : List (List String)) : List Path :=
  (paths.filter fun names => (known.at? names).isNone).map Path.ofFields

theorem missing_cons (known : Json) (names : List String) (paths : List (List String)) :
    missing known (names :: paths) = missing known [names] ++ missing known paths := by
  rw [missing, missing, missing, ← List.map_append, ← List.filter_append]
  rfl

/-- A walk from the root to a leaf. -/
theorem query_walk (hschema : c.schema = some s) {names : List String} (h : s.LeadsToLeaf names)
    (hclear : c.state.value.ClearTo names) :
    c.query.walk names c
      = (.leaf (c.state.value.at? names), c.ask (missing c.state.value [names])) := by
  have hbound : c.query.bound = c.state.value := rfl
  rw [walk_leaf (t := c.query) hschema h.ne_nil h.leaf h.proper hclear, hbound, missing,
    List.filter_cons]
  cases c.state.value.at? names <;> rfl

/-- **What walks to leaves come to.**  All of them read one state, and what is missing from it is
asked for. -/
theorem walkAll_leaves (hschema : c.schema = some s) {paths : List (List String)}
    (hleaves : ∀ names ∈ paths, s.LeadsToLeaf names)
    (hclear : ∀ names ∈ paths, c.state.value.ClearTo names) :
    walkAll paths c
      = (paths.map fun names => .leaf (c.state.value.at? names),
          c.ask (missing c.state.value paths)) := by
  induction paths generalizing c with
  | nil => rfl
  | cons names paths ih =>
    have hfirst := query_walk hschema (hleaves names List.mem_cons_self)
      (hclear names List.mem_cons_self)
    have hrest := ih (c := c.ask (missing c.state.value [names])) hschema
      (fun other hother => hleaves other (List.mem_cons_of_mem _ hother))
      (fun other hother => by
        rw [Client.state_ask]
        exact hclear other (List.mem_cons_of_mem _ hother))
    rw [Client.state_ask] at hrest
    have hwalks : walkAll (names :: paths) c
        = ((c.query.walk names c).1 :: (walkAll paths (c.query.walk names c).2).1,
            (walkAll paths (c.query.walk names c).2).2) := by
      rw [walkAll, List.mapM_cons]
      rfl
    rw [hwalks, hfirst, hrest, missing_cons _ names paths, Client.ask_append]
    rfl

end Traversal

end GraphWalk
