import GraphWalk.Client
import GraphWalk.Json.Shown
import GraphWalk.Text.Numeral

/-!
# Traversals

A traversal stands at a path and holds what was known there when it was made.  A
step never waits: a known leaf answers, an unknown leaf is asked for and answers
nothing yet, and anything else leads deeper.

## Main definitions

* `Traversal` — a path and the value bound to it.
* `Access` — what a step leads to: a leaf, or a deeper traversal.
* `Traversal.step` — one step by a key.
* `Traversal.withArguments` — arguments for the last field.
* `Traversal.map`, `Traversal.apply` — a query for each item of a list.
-/

namespace GraphWalk

/-- A position in the graph. -/
structure Traversal where
  /-- The way from the root. -/
  path : Path
  /-- What was known there; `null` when nothing was. -/
  bound : Json
  deriving Repr, Inhabited

/-- What a step leads to. -/
inductive Access
  /-- A leaf.  Without a value it was asked for. -/
  | leaf (value : Option Json)
  /-- An object, a list, or something unknown. -/
  | branch (t : Traversal)
  deriving Repr, Inhabited

/-- What is known where a step leads: the value of a leaf, or what a traversal is bound to. -/
def Access.value? : Access → Option Json
  | .leaf value => value
  | .branch t => if t.bound.isNull then none else some t.bound

/-- The results of a query at a traversal. -/
inductive Applied (α : Type)
  /-- The traversal is bound to a list: one result for every item. -/
  | each (results : List α)
  /-- The traversal is not bound to a list. -/
  | single (result : α)
  deriving Repr, Inhabited

/-- The results in a list. -/
def Applied.toList {α : Type} : Applied α → List α
  | .each results => results
  | .single result => [result]

/-- The traversal at the root, bound to everything that is known. -/
def Client.query (c : Client) : Traversal := ⟨.root, c.state.value⟩

namespace Traversal

/-- The traversal is bound to a list. -/
def isList (t : Traversal) : Bool := t.bound.isArray

/-- The traversal as messages show it. -/
def shown (t : Traversal) : String :=
  "Traversal \x7b path: " ++ Text.escaped t.path.text ++ ", bound: " ++ t.bound.shown ++ ", .. \x7d"

/-- What is known of a member; `null` when nothing is. -/
def boundMember (t : Traversal) (name : String) : Json :=
  (t.bound.member? name).getD .null

/-- The number of an item that a key names. -/
def itemIndex? (key : String) : Option Nat :=
  Text.readNatural? Text.maxWord64 key.toList

/-- A step from a list: a number selects an item and stays at the list's path, any other key names
an operation and keeps the list. -/
def listStep (path : Path) (items : List Json) (key : String) : Traversal :=
  match itemIndex? key with
  | some index => ⟨path, items[index]?.getD .null⟩
  | none => ⟨path.withField key, .array items⟩

/-- A leaf: its value under the first of some names that is known, or else a request for it. -/
def leaf (t : Traversal) (path : Path) (names : List String) : Query Access :=
  match names.findSome? t.bound.member? with
  | some value => pure (.leaf (some value))
  | none => do
    let _ ← Query.register path
    pure (.leaf none)

/-- A step to what is not a leaf. -/
def branch (t : Traversal) (key : String) : Traversal :=
  ⟨t.path.withField key, t.boundMember key⟩

/-- A step where a schema tells the leaves. -/
def schemaStep (s : Schema) (t : Traversal) (key : String) : Query Access :=
  if s.isLeaf? (t.path.withField key) = some true then t.leaf (t.path.withField key) [key]
  else pure (.branch (t.branch key))

/-- A step where a marker tells the leaves.  The marker is no part of the path; a value may be
stored with or without it. -/
def markerStep (marker : Char) (t : Traversal) (key : String) : Query Access :=
  match unmarked? marker key with
  | some name => t.leaf (t.path.withField name) [key, name]
  | none => pure (.branch (t.branch key))

/-- One step by a key. -/
def step (t : Traversal) (key : String) : Query Access := do
  match t.bound with
  | .array items => pure (.branch (listStep t.path items key))
  | _ =>
    let c ← get
    match c.schema with
    | some s => schemaStep s t key
    | none => markerStep c.marker t key

/-- One step by a key, going on from the value when it leads to a leaf. -/
def field (t : Traversal) (key : String) : Query Traversal := do
  match ← t.step key with
  | .branch t => pure t
  | .leaf value => pure ⟨t.path.withField key, value.getD .null⟩

/-- What is known at a key; an unknown leaf is asked for. -/
def value (t : Traversal) (key : String) : Query (Option Json) := do
  return (← t.step key).value?

/-- Steps by some keys, the last of which tells what they lead to. -/
def walk : Traversal → List String → Query Access
  | t, [] => pure (.branch t)
  | t, [key] => t.step key
  | t, key :: next :: keys => do
    let t ← t.field key
    t.walk (next :: keys)

/-- Give arguments to the last field.  When others were given before at this path, nothing is known
here any more. -/
def withArguments (t : Traversal) (args : Dict Json) : Query Traversal := do
  let changed ← Query.fingerprint t.path args
  return ⟨t.path.withArguments args, if changed then .null else t.bound⟩

/-- A query at every item of a list, each at the list's own path; otherwise a query here. -/
def map {α : Type} (t : Traversal) (f : Traversal → Query α) : Query (Applied α) :=
  match t.bound with
  | .array items => do return .each (← items.mapM fun item => f ⟨t.path, item⟩)
  | _ => do return .single (← f t)

/-- The same where the last key named an operation: the path goes back over that key. -/
def apply {α : Type} (t : Traversal) (f : Traversal → Query α) : Query (Applied α) :=
  map ⟨t.path.parent, t.bound⟩ f

theorem apply_eq_map {α : Type} (t : Traversal) (f : Traversal → Query α) :
    t.apply f = map ⟨t.path.parent, t.bound⟩ f := rfl

end Traversal

end GraphWalk
