import GraphWalk.Path
import GraphWalk.Schema.Basic

/-!
# Classifying paths

Following the fields of a path through a schema tells whether the path ends at a
leaf, goes on, or leads nowhere the schema knows.

## Main definitions

* `TypeRef` — where a path leads.
* `Schema.follow` — some fields followed from a type.
* `Schema.resolve` — where a path leads, from the query type.
* `Schema.isLeaf?` — whether a path ends at a leaf, if that is known.
* `FieldSpec.outputType` — where a field leads.

## Main results

* `FieldSpec.spec_outputType` — what a field comes to never takes arguments.
-/

namespace GraphWalk

/-- Where a path leads. -/
inductive TypeRef
  /-- To a leaf: a value that nothing can be asked of further. -/
  | scalar (name : String)
  /-- To an object of a type. -/
  | object (name : String)
  /-- To a list of objects of a type. -/
  | list (name : String)
  deriving DecidableEq, Repr, Inhabited

namespace TypeRef

/-- The name of the type. -/
def name : TypeRef → String
  | .scalar name | .object name | .list name => name

/-- A path that ends here ends at a leaf. -/
def isLeaf : TypeRef → Bool
  | .scalar _ => true
  | _ => false

/-- The type as it is shown: a list between brackets. -/
def text : TypeRef → String
  | .scalar name | .object name => name
  | .list name => "[" ++ name ++ "]"

/-- A field without arguments that leads here. -/
def spec : TypeRef → FieldSpec
  | .scalar name => .scalar name
  | .object name => .object name
  | .list name => .list name

@[simp] theorem isLeaf_scalar (n : String) : (scalar n).isLeaf = true := rfl

@[simp] theorem isLeaf_object (n : String) : (object n).isLeaf = false := rfl

@[simp] theorem isLeaf_list (n : String) : (list n).isLeaf = false := rfl

end TypeRef

namespace FieldSpec

/-- Where the field leads, arguments or not. -/
def outputType : FieldSpec → TypeRef
  | .scalar name => .scalar name
  | .object name => .object name
  | .list name => .list name
  | .callable _ returns => returns.outputType

/-- What a field comes to leads to one place, and takes no arguments. -/
theorem spec_outputType : ∀ spec : FieldSpec, spec.outputType.spec = spec.output
  | .scalar _ | .object _ | .list _ => rfl
  | .callable _ returns => returns.spec_outputType

end FieldSpec

namespace Schema

/-- The type that paths start from. -/
def entryType : String := "Query"

/-- Where some fields lead.  A scalar ends the way, whatever fields are left; a field that the
type lacks leads nowhere, and neither does one that still takes arguments. -/
def follow (s : Schema) : TypeRef → List String → Option TypeRef
  | type, [] => some type
  | type, field :: fields =>
    (s.field? type.name field).bind fun spec =>
      match spec.output with
      | .scalar name => some (.scalar name)
      | .object name => follow s (.object name) fields
      | .list name => follow s (.list name) fields
      | .callable _ _ => none

/-- Where a path leads. -/
def resolve (s : Schema) (p : Path) : Option TypeRef :=
  s.follow (.object entryType) p.fields

/-- Whether a path ends at a leaf; none when it leads nowhere. -/
def isLeaf? (s : Schema) (p : Path) : Option Bool :=
  (s.resolve p).map TypeRef.isLeaf

@[simp] theorem follow_nil (s : Schema) (type : TypeRef) : s.follow type [] = some type := rfl

/-- A field is followed to where it leads, whatever arguments it takes. -/
@[simp] theorem follow_cons (s : Schema) (type : TypeRef) (field : String)
    (fields : List String) :
    s.follow type (field :: fields)
      = (s.field? type.name field).bind fun spec =>
          if spec.outputType.isLeaf then some spec.outputType
          else s.follow spec.outputType fields := by
  rw [follow]
  congr 1
  funext spec
  -- told as a place, what the field comes to leaves the last arm without a case
  rw [← spec.spec_outputType]
  cases spec.outputType <;> rfl

@[simp] theorem resolve_root (s : Schema) : s.resolve .root = some (.object entryType) := rfl

/-- Arguments do not change where a path leads. -/
@[simp] theorem resolve_withArguments (s : Schema) (p : Path) (args : Dict Json) :
    s.resolve (p.withArguments args) = s.resolve p := by
  simp [resolve]

end Schema

end GraphWalk
