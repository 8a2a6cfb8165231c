import GraphWalk.Path

/-!
# Selections

The fields that a batch asks for, as one nested object.  A field that is asked for
itself holds `true`; a field with arguments holds them beside the selection of what
lies below it.

## Main definitions

* `Selection.argumentsName`, `Selection.selectionName` — the two names of a field with arguments.
* `Selection.nest` — one path added to a selection.
* `Selection.ofPaths` — the selection of some paths, added in order.
-/

namespace GraphWalk

namespace Selection

/-- The name under which the arguments of a field stand. -/
def argumentsName : String := "where"

/-- The name under which the selection below a field with arguments stands. -/
def selectionName : String := "select"

/-- The selection that stands under a name; empty when there is none. -/
def child (members : Dict Json) (name : String) : Dict Json :=
  match Dict.get? members name with
  | some (.object members) => members
  | _ => []

/-- A path added to a selection.  A field is asked for by `true`, which gives way to a selection
below it.  Arguments stand beside the selection that the rest of the path goes into. -/
def nest : Dict Json → List Step → Dict Json
  | members, [] => members
  | members, [.field name] =>
    if Dict.contains members name then members else Dict.insert members name (.bool true)
  | members, .field name :: rest =>
    Dict.insert members name (.object (nest (child members name) rest))
  | members, .arguments args :: rest =>
    let members := Dict.insert members argumentsName (.object args)
    Dict.insert members selectionName (.object (nest (child members selectionName) rest))

@[simp] theorem nest_nil (members : Dict Json) : nest members [] = members := rfl

@[simp] theorem nest_field_nil (members : Dict Json) (name : String) :
    nest members [.field name]
      = if Dict.contains members name then members
        else Dict.insert members name (.bool true) := rfl

@[simp] theorem nest_field_cons (members : Dict Json) (name : String) (step : Step)
    (rest : List Step) :
    nest members (.field name :: step :: rest)
      = Dict.insert members name (.object (nest (child members name) (step :: rest))) := rfl

@[simp] theorem nest_arguments (members : Dict Json) (args : Dict Json) (rest : List Step) :
    nest members (.arguments args :: rest)
      = Dict.insert (Dict.insert members argumentsName (.object args)) selectionName
          (.object (nest (child (Dict.insert members argumentsName (.object args))
            selectionName) rest)) := rfl

/-- The members of the selection of some paths. -/
def membersOf (paths : List Path) : Dict Json :=
  paths.foldl (fun members path => nest members path.steps) []

/-- The selection of some paths, added in order. -/
def ofPaths (paths : List Path) : Json :=
  .object (membersOf paths)

@[simp] theorem ofPaths_nil : ofPaths [] = .empty := rfl

theorem membersOf_append_singleton (paths : List Path) (path : Path) :
    membersOf (paths ++ [path]) = nest (membersOf paths) path.steps := by
  simp [membersOf]

end Selection

end GraphWalk
