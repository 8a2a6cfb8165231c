import GraphWalk.Traversal

/-!
# Chains of accesses

A chain says how to go on from a traversal: fields, arguments, and in the end a
question.  It is a query written down as data.

## Main definitions

* `Chain` — the chains.
* `Answer` — what a chain comes to.
* `Chain.eval` — a chain followed from a traversal, with the traversals it saves on the way.
-/

namespace GraphWalk

/-- How to go on from a traversal. -/
inductive Chain
  /-- Stay here. -/
  | here
  /-- Follow a field. -/
  | field (key : String) (next : Chain)
  /-- Give arguments. -/
  | arguments (args : Dict Json) (next : Chain)
  /-- Save the traversal under a name. -/
  | save (name : String) (next : Chain)
  /-- Step by a key, and go on if it leads to no leaf. -/
  | step (key : String) (next : Chain)
  /-- Step by some keys, and go on if they lead to no leaf. -/
  | walk (keys : List String) (next : Chain)
  /-- The values at some keys. -/
  | values (keys : List String)
  /-- The value at a key. -/
  | value (key : String)
  /-- What a step by a key comes to. -/
  | stepValue (key : String)
  /-- A chain at every item. -/
  | map (inner : Chain)
  /-- A chain at every item, the last key having named an operation. -/
  | apply (inner : Chain)
  /-- The results of a chain at every item, in a list. -/
  | mapList (inner : Chain)
  /-- The same, the last key having named an operation. -/
  | applyList (inner : Chain)
  /-- Several chains, each from here. -/
  | all (chains : List Chain)
  /-- The traversal as messages show it. -/
  | shown
  deriving Inhabited

/-- What a chain comes to. -/
inductive Answer
  /-- A traversal. -/
  | here (t : Traversal)
  /-- A leaf. -/
  | leaf (value : Option Json)
  /-- What the rest of the chain comes to behind a step that leads to no leaf. -/
  | branch (answer : Answer)
  /-- What is known at a key. -/
  | value (value : Option Json)
  /-- What is known at some keys. -/
  | values (values : List (Option Json))
  /-- An answer for every item. -/
  | each (answers : List Answer)
  /-- The answer where there are no items. -/
  | single (answer : Answer)
  /-- The answers of items in a list. -/
  | list (answers : List Answer)
  /-- The answers of several chains. -/
  | all (answers : List Answer)
  /-- A traversal as messages show it. -/
  | shown (text : String)
  deriving Inhabited

/-- Traversals saved under names, the latest last. -/
abbrev Saved := List (String × Traversal)

namespace Answer

/-- The answers of the items of a list, or the one answer where there is no list. -/
def ofApplied : Applied (Answer × Saved) → Answer × Saved
  | .each results => (.each (results.map Prod.fst), results.flatMap Prod.snd)
  | .single result => (.single result.1, result.2)

/-- The same answers in a list. -/
def ofAppliedList (results : Applied (Answer × Saved)) : Answer × Saved :=
  (.list (results.toList.map Prod.fst), results.toList.flatMap Prod.snd)

/-- What follows a step: the leaf it leads to, or the answer from where it leads. -/
def ofAccess (access : Access) (next : Traversal → Query (Answer × Saved)) :
    Query (Answer × Saved) :=
  match access with
  | .leaf known => pure (.leaf known, [])
  | .branch t => do
    let (answer, saved) ← next t
    return (.branch answer, saved)

end Answer

namespace Chain

mutual

/-- What a chain comes to from a traversal, and what it saves on the way. -/
def eval : Chain → Traversal → Query (Answer × Saved)
  | .here, t => pure (.here t, [])
  | .field key next, t => do next.eval (← t.field key)
  | .arguments args next, t => do next.eval (← t.withArguments args)
  | .save name next, t => do
    let (answer, saved) ← next.eval t
    return (answer, (name, t) :: saved)
  | .step key next, t => do Answer.ofAccess (← t.step key) next.eval
  | .walk keys next, t => do Answer.ofAccess (← t.walk keys) next.eval
  | .values keys, t => do return (.values (← keys.mapM t.value), [])
  | .value key, t => do return (.value (← t.value key), [])
  | .stepValue key, t => do return (.value (← t.step key).value?, [])
  | .map inner, t => do return Answer.ofApplied (← t.map inner.eval)
  | .apply inner, t => do return Answer.ofApplied (← t.apply inner.eval)
  | .mapList inner, t => do return Answer.ofAppliedList (← t.map inner.eval)
  | .applyList inner, t => do return Answer.ofAppliedList (← t.apply inner.eval)
  | .all chains, t => do
    let (answers, saved) ← evalAll chains t
    return (.all answers, saved)
  | .shown, t => pure (.shown t.shown, [])

/-- What several chains come to, each from the same traversal, one after the other. -/
def evalAll : List Chain → Traversal → Query (List Answer × Saved)
  | [], _ => pure ([], [])
  | chain :: chains, t => do
    let (answer, saved) ← chain.eval t
    let (answers, more) ← evalAll chains t
    return (answer :: answers, saved ++ more)

end

end Chain

end GraphWalk
