import GraphWalk.Dict

/-!
# Schemas

A schema is a table of types, each a table of fields.  A field leads to a scalar, to
an object or to a list of objects, or it takes arguments and returns another field;
decorations such as non-null are gone.

## Main definitions

* `FieldSpec` — what a field leads to, or what it takes and returns.
* `FieldSpec.output`, `FieldSpec.typeName` — what a field comes to once its arguments are given.
* `FieldSpec.IsFlat` — no arguments are taken by what a field takes or returns.
* `Schema` — the types, the aliases of enums and unions, and the declared scalars.
* `Schema.field?` — a field of a type.
* `Schema.isScalar` — a built-in or a declared scalar.
-/

namespace GraphWalk

/-- A field of a type. -/
inductive FieldSpec
  /-- It leads to a value that nothing can be asked of further, or to a list of such values. -/
  | scalar (name : String)
  /-- It leads to an object of a type. -/
  | object (name : String)
  /-- It leads to a list of objects of a type. -/
  | list (name : String)
  /-- It takes arguments, by their names, and returns what another field would lead to. -/
  | callable (arguments : List (String × FieldSpec)) (returns : FieldSpec)
  deriving Repr, Inhabited

namespace FieldSpec

/-- The type that the field comes to. -/
def typeName : FieldSpec → String
  | .scalar name | .object name | .list name => name
  | .callable _ returns => returns.typeName

/-- What the field comes to once all arguments are given. -/
def output : FieldSpec → FieldSpec
  | .callable _ returns => returns.output
  | spec => spec

/-- The field comes to a scalar. -/
def isScalar (spec : FieldSpec) : Bool :=
  match spec.output with
  | .scalar _ => true
  | _ => false

/-- The field takes no arguments. -/
def IsPlain : FieldSpec → Prop
  | .callable _ _ => False
  | _ => True

/-- The field takes no arguments, or else what it returns takes none, and neither do the arguments
themselves. -/
def IsFlat : FieldSpec → Prop
  | .callable arguments returns => returns.IsPlain ∧ ∀ argument ∈ arguments, argument.2.IsPlain
  | _ => True

@[simp] theorem output_scalar (name : String) : (scalar name).output = scalar name := rfl

@[simp] theorem output_object (name : String) : (object name).output = object name := rfl

@[simp] theorem output_list (name : String) : (list name).output = list name := rfl

@[simp] theorem output_callable (arguments : Dict FieldSpec) (returns : FieldSpec) :
    (callable arguments returns).output = returns.output := rfl

/-! ### Equality -/

mutual

/-- Whether two fields are the same. -/
def decEq : (a b : FieldSpec) → Decidable (a = b)
  | .scalar m, .scalar n => decidable_of_iff (m = n) ⟨congrArg scalar, scalar.inj⟩
  | .object m, .object n => decidable_of_iff (m = n) ⟨congrArg object, object.inj⟩
  | .list m, .list n => decidable_of_iff (m = n) ⟨congrArg list, list.inj⟩
  | .callable xs r, .callable ys q =>
    match decEqArguments xs ys, r.decEq q with
    | .isTrue hxs, .isTrue hr => .isTrue (hxs ▸ hr ▸ rfl)
    | .isFalse hxs, _ => .isFalse fun h => hxs (callable.inj h).1
    | _, .isFalse hr => .isFalse fun h => hr (callable.inj h).2
  | .scalar _, .object _ | .scalar _, .list _ | .scalar _, .callable _ _
  | .object _, .scalar _ | .object _, .list _ | .object _, .callable _ _
  | .list _, .scalar _ | .list _, .object _ | .list _, .callable _ _
  | .callable _ _, .scalar _ | .callable _ _, .object _ | .callable _ _, .list _ => .isFalse nofun

/-- Whether two tables of arguments are the same. -/
def decEqArguments : (xs ys : List (String × FieldSpec)) → Decidable (xs = ys)
  | [], [] => .isTrue rfl
  | [], _ :: _ => .isFalse nofun
  | _ :: _, [] => .isFalse nofun
  | (m, a) :: xs, (n, b) :: ys =>
    match decEq a b, decEqArguments xs ys with
    | .isTrue hab, .isTrue hxs =>
      decidable_of_iff (m = n) ⟨fun h => h ▸ hab ▸ hxs ▸ rfl, fun h =>
        (Prod.mk.inj (List.cons.inj h).1).1⟩
    | .isFalse hab, _ => .isFalse fun h => hab (Prod.mk.inj (List.cons.inj h).1).2
    | _, .isFalse hxs => .isFalse fun h => hxs (List.cons.inj h).2

end

instance : DecidableEq FieldSpec := decEq

end FieldSpec

/-- The fields of a type. -/
abbrev FieldTable := Dict FieldSpec

/-- The types of a schema. -/
structure Schema where
  /-- The object, input and interface types. -/
  types : Dict FieldTable := []
  /-- What an enum or a union stands for: a type, or the name of the scalar for text. -/
  aliases : Dict String := []
  /-- The declared scalars; nothing is kept under their names. -/
  scalars : Dict Unit := []
  deriving DecidableEq, Repr, Inhabited

namespace Schema

/-- The scalars that need no declaration. -/
def builtinScalars : List String := ["String", "Int", "Float", "ID", "Boolean"]

/-- The types that every schema has. -/
def rootTypes : List String := ["Query", "Mutation", "Subscription"]

/-- The scalar that enums, and unions of no known type, stand for. -/
def textScalar : String := "String"

/-- The fields of a type. -/
def fields? (s : Schema) (type : String) : Option FieldTable :=
  Dict.get? s.types type

/-- A field of a type. -/
def field? (s : Schema) (type field : String) : Option FieldSpec :=
  (s.fields? type).bind fun table => Dict.get? table field

/-- What an enum or a union stands for. -/
def alias? (s : Schema) (name : String) : Option String :=
  Dict.get? s.aliases name

/-- A built-in or a declared scalar. -/
def isScalar (s : Schema) (name : String) : Bool :=
  builtinScalars.contains name || Dict.contains s.scalars name

/-- The names of the types, ascending. -/
def typeNames (s : Schema) : List String := Dict.keys s.types

/-- The names of the declared scalars, ascending. -/
def scalarNames (s : Schema) : List String := Dict.keys s.scalars

end Schema

end GraphWalk
