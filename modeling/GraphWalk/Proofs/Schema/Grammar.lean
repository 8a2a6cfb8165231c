import GraphWalk.Proofs.Schema.Tokens
import GraphWalk.Schema.Build

/-!
# The grammar of schema texts

What one can write in a schema, without comments, descriptions and default values, and
what it means.  A definition is kept together with what is free to choose in writing it:
commas, bars, exclamation marks, braces or a sign.  The meaning disregards all of these,
and the order of the definitions with them.

## Main definitions

* `TypeExpr`, `ArgumentDef`, `FieldDef`, `Definition` — what can be written.
* `Definition.tokens`, `tokensOf` — how it is written.
* `WellFormed` — distinct names, none of which is taken.
* `leadsTo` — **where a mentioned type leads.**
* `schemaOf` — the schema that is meant.
-/

namespace GraphWalk

namespace SchemaSyntax

/-- The words that begin a definition or a list of interfaces. -/
def keywords : List String :=
  ["type", "input", "interface", "union", "enum", "scalar", "implements"]

theorem isWord_of_mem_keywords {keyword : String} (h : keyword ∈ keywords) : IsWord keyword := by
  have hall : ∀ keyword ∈ keywords, IsWord keyword := by decide +kernel
  exact hall keyword h

/-- A type as it is written: a name or a list, with an exclamation mark or without. -/
inductive TypeExpr
  /-- A name. -/
  | named (name : String) (required : Bool)
  /-- A list between brackets. -/
  | list (inner : TypeExpr) (required : Bool)
  deriving DecidableEq, Repr

namespace TypeExpr

/-- The name inside all brackets. -/
def name : TypeExpr → String
  | named name _ => name
  | list inner _ => inner.name

/-- There are brackets. -/
def isList : TypeExpr → Bool
  | named _ _ => false
  | list _ _ => true

/-- The exclamation mark. -/
def mark (required : Bool) : List Token :=
  if required then [.sign '!'] else []

/-- How a type is written. -/
def tokens : TypeExpr → List Token
  | named name required => .word name :: mark required
  | list inner required => .sign '[' :: (inner.tokens ++ .sign ']' :: mark required)

end TypeExpr

/-- Commas between two fields or arguments. -/
def commas (n : Nat) : List Token := List.replicate n (.sign ',')

/-- An argument of a field. -/
structure ArgumentDef where
  /-- Its name. -/
  name : String
  /-- Its type. -/
  type : TypeExpr
  /-- The number of commas behind it. -/
  commas : Nat
  deriving DecidableEq, Repr

/-- How an argument is written. -/
def ArgumentDef.tokens (a : ArgumentDef) : List Token :=
  .word a.name :: .sign ':' :: (a.type.tokens ++ SchemaSyntax.commas a.commas)

/-- A field of a type. -/
structure FieldDef where
  /-- Its name. -/
  name : String
  /-- Its arguments between parentheses, if it takes any. -/
  arguments : Option (List ArgumentDef)
  /-- Its type. -/
  type : TypeExpr
  /-- The number of commas behind it. -/
  commas : Nat
  deriving DecidableEq, Repr

/-- How the arguments of a field are written. -/
def argumentTokens : Option (List ArgumentDef) → List Token
  | none => []
  | some arguments => .sign '(' :: (arguments.flatMap ArgumentDef.tokens ++ [.sign ')'])

/-- How a field is written. -/
def FieldDef.tokens (f : FieldDef) : List Token :=
  .word f.name :: (argumentTokens f.arguments
    ++ .sign ':' :: (f.type.tokens ++ SchemaSyntax.commas f.commas))

/-- The keyword of a type with fields. -/
inductive ObjectKind
  /-- An object type. -/
  | type
  /-- An input type. -/
  | input
  /-- An interface. -/
  | interface
  deriving DecidableEq, Repr

/-- How the keyword is written. -/
def ObjectKind.keyword : ObjectKind → String
  | .type => "type"
  | .input => "input"
  | .interface => "interface"

/-- A definition of a schema. -/
inductive Definition
  /-- A type with fields.  Behind the first of its interfaces there are others, and what stands
  between them. -/
  | object (kind : ObjectKind) (name : String) (interfaces : Option (String × List Token))
      (fields : List FieldDef)
  /-- An enum, its values between braces or behind an equals sign. -/
  | enum (name : String) (braces : Bool) (values : List Token)
  /-- A union behind a colon or an equals sign: perhaps a bar, the first alternative, and others
  with what stands between them. -/
  | union (name : String) (colon bar : Bool) (first : String) (others : List Token)
  /-- A scalar. -/
  | scalar (name : String)
  deriving DecidableEq, Repr

namespace Definition

/-- The name that is defined. -/
def name : Definition → String
  | object _ name _ _ => name
  | enum name _ _ => name
  | union name _ _ _ _ => name
  | scalar name => name

/-- How a list of interfaces is written. -/
def interfaceTokens : Option (String × List Token) → List Token
  | none => []
  | some (first, others) => .word "implements" :: .word first :: others

/-- How a definition is written. -/
def tokens : Definition → List Token
  | object kind name interfaces fields =>
    .word kind.keyword :: .word name :: (interfaceTokens interfaces
      ++ .sign '\x7b' :: (fields.flatMap FieldDef.tokens ++ [.sign '\x7d']))
  | enum name true values =>
    .word "enum" :: .word name :: .sign '\x7b' :: (values ++ [.sign '\x7d'])
  | enum name false values => .word "enum" :: .word name :: .sign '=' :: values
  | union name colon bar first others =>
    .word "union" :: .word name :: .sign (if colon then ':' else '=')
      :: ((if bar then [.sign '|'] else []) ++ .word first :: others)
  | scalar name => [.word "scalar", .word name]

/-- The keyword with which a definition begins. -/
def keyword : Definition → String
  | object kind _ _ _ => kind.keyword
  | enum _ _ _ => "enum"
  | union _ _ _ _ _ => "union"
  | scalar _ => "scalar"

/-- What is written behind the keyword. -/
def tail (d : Definition) : List Token := d.tokens.tail

theorem tokens_eq (d : Definition) : d.tokens = .word d.keyword :: d.tail := by
  cases d with
  | enum name braces values => cases braces <;> rfl
  | _ => rfl

/-- A type with fields: its name and its fields. -/
def object? : Definition → Option (String × List FieldDef)
  | object _ name _ fields => some (name, fields)
  | _ => none

/-- An enum: its name. -/
def enum? : Definition → Option String
  | enum name _ _ => some name
  | _ => none

/-- A union: its name and its first alternative. -/
def union? : Definition → Option (String × String)
  | union name _ _ first _ => some (name, first)
  | _ => none

/-- A scalar: its name. -/
def scalar? : Definition → Option String
  | scalar name => some name
  | _ => none

end Definition

/-! ### What may be written -/

/-- Words that are no keywords, and some signs between them. -/
def Loose (between : List Char) (tokens : List Token) : Prop :=
  ∀ token ∈ tokens, match token with
    | .word name => name ∉ keywords
    | .sign c => c ∈ between

/-- The types that a field mentions are no keywords.  Its own name, and those of its arguments, may
be any. -/
def FieldDef.Allowed (f : FieldDef) : Prop :=
  f.type.name ∉ keywords ∧
    ∀ arguments, f.arguments = some arguments → ∀ a ∈ arguments, a.type.name ∉ keywords

/-- No name of a definition is a keyword, save those of fields and arguments. -/
def Definition.Allowed : Definition → Prop
  | .object _ name interfaces fields =>
    name ∉ keywords ∧
      (∀ first others, interfaces = some (first, others) →
        first ∉ keywords ∧ Loose ['&', ','] others) ∧
      ∀ f ∈ fields, f.Allowed
  | .enum name _ values => name ∉ keywords ∧ Loose ['|', ','] values
  | .union name _ _ first others => name ∉ keywords ∧ first ∉ keywords ∧ Loose ['|'] others
  | .scalar name => name ∉ keywords

/-- Definitions of distinct names that are not those of built-in scalars, no union of which has
another as its first alternative. -/
structure WellFormed (definitions : List Definition) : Prop where
  allowed : ∀ d ∈ definitions, d.Allowed
  distinct : (definitions.map Definition.name).Nodup
  ours : ∀ d ∈ definitions, d.name ∉ Schema.builtinScalars
  firsts : ∀ name first, (name, first) ∈ definitions.filterMap Definition.union? →
    ∀ other, (first, other) ∉ definitions.filterMap Definition.union?

/-- How definitions are written. -/
def tokensOf (definitions : List Definition) : List Token :=
  definitions.flatMap Definition.tokens

/-! ### What it means -/

/-- The definition of a name. -/
def definitionOf? (definitions : List Definition) (name : String) : Option Definition :=
  definitions.find? fun d => d.name == name

/-- The name is that of a type with fields. -/
def definesObject (definitions : List Definition) (name : String) : Bool :=
  (definitionOf? definitions name).any fun d => d.object?.isSome

/-- An object of a type, or a list of them. -/
def objectRef (name : String) (isList : Bool) : FieldSpec :=
  if isList then .list name else .object name

/-- **Where a mentioned type leads.**  An enum or a declared scalar leads to a scalar of its name,
and so does a union unless its first alternative is a type with fields, for which it stands.  A name
that is not defined is that of a scalar if it is built in, and of a type otherwise. -/
def leadsTo (definitions : List Definition) (name : String) (isList : Bool) : FieldSpec :=
  match definitionOf? definitions name with
  | some (.object _ _ _ _) => objectRef name isList
  | some (.enum _ _ _) => .scalar name
  | some (.union _ _ _ first _) =>
    if definesObject definitions first then objectRef first isList else .scalar name
  | some (.scalar _) => .scalar name
  | none => if name ∈ Schema.builtinScalars then .scalar name else objectRef name isList

/-- Where a written type leads. -/
def refOf (definitions : List Definition) (type : TypeExpr) : FieldSpec :=
  leadsTo definitions type.name type.isList

/-- What a field is: one that takes arguments if any are written. -/
def specOf (definitions : List Definition) (f : FieldDef) : FieldSpec :=
  match f.arguments with
  | none => refOf definitions f.type
  | some arguments =>
    .callable (Dict.ofList (arguments.map fun a => (a.name, refOf definitions a.type)))
      (refOf definitions f.type)

/-- The fields of a type. -/
def tableOf (definitions : List Definition) (fields : List FieldDef) : FieldTable :=
  Dict.ofList (fields.map fun f => (f.name, specOf definitions f))

/-- What an enum or a union stands for. -/
def aliasOf? (definitions : List Definition) : Definition → Option String
  | .enum _ _ _ => some Schema.textScalar
  | .union _ _ _ first _ =>
    some (if definesObject definitions first then first else Schema.textScalar)
  | _ => none

/-- The schema that is meant: the types that are defined beside empty ones for the roots, what enums
and unions stand for, and the declared scalars. -/
def schemaOf (definitions : List Definition) : Schema where
  types := Dict.ofList (Schema.rootTypes.map (fun root => (root, []))
    ++ (definitions.filterMap Definition.object?).map fun (name, fields) =>
      (name, tableOf definitions fields))
  aliases := Dict.ofList (definitions.filterMap fun d =>
    (aliasOf? definitions d).map fun target => (d.name, target))
  scalars := Dict.ofList ((definitions.filterMap Definition.scalar?).map fun name => (name, ()))

end SchemaSyntax

end GraphWalk
