import GraphWalk.Proofs.Schema.Grammar
import GraphWalk.Proofs.Schema.Lexemes

/-!
# Notes in a schema text

Two things may be added to a schema that are no part of what it means: a description
before a field, which is a quoted text, and a default value behind an argument.

## Main definitions

* `Literal` — what a default value may be.
* `NotedArgument`, `NotedField`, `NotedDefinition` — what can be written with notes.
* `NotedDefinition.lexemes`, `lexemesOf` — how it is written.
* `NotedDefinition.bare` — the same without its notes.
* `NotedDefinition.descriptions`, `NotedDefinition.defaults` — the notes in a type.
* `Definition.noted` — a definition that has none.
-/

namespace GraphWalk

namespace SchemaSyntax

/-! ### Default values -/

mutual

/-- A value as it is written. -/
inductive Literal
  /-- A number. -/
  | numeral (digits : List Char)
  /-- A name: a truth value, `null`, or a value of an enum. -/
  | name (name : String)
  /-- A quoted text. -/
  | text (content : List Char)
  /-- A list between brackets. -/
  | list (items : Items)
  /-- An object between braces. -/
  | object (members : Members)

/-- The values of a list, each with the number of commas behind it. -/
inductive Items
  /-- The end. -/
  | nil
  /-- A value, and those behind it. -/
  | cons (item : Literal) (commas : Nat) (rest : Items)

/-- The members of an object, each with the number of commas behind it. -/
inductive Members
  /-- The end. -/
  | nil
  /-- A member, and those behind it. -/
  | cons (name : String) (value : Literal) (commas : Nat) (rest : Members)

end

mutual

/-- How a value is written. -/
def Literal.lexemes : Literal → List Lexeme
  | .numeral digits => [.numeral digits]
  | .name name => [.word name]
  | .text content => [.quoted content]
  | .list items => .sign '[' :: (items.lexemes ++ [.sign ']'])
  | .object members => .sign '\x7b' :: (members.lexemes ++ [.sign '\x7d'])

/-- How the values of a list are written. -/
def Items.lexemes : Items → List Lexeme
  | .nil => []
  | .cons item n rest => item.lexemes ++ (plain (commas n) ++ rest.lexemes)

/-- How the members of an object are written. -/
def Members.lexemes : Members → List Lexeme
  | .nil => []
  | .cons name value n rest =>
    .word name :: .sign ':' :: (value.lexemes ++ (plain (commas n) ++ rest.lexemes))

end

mutual

/-- No name in a value is a keyword, save those of members. -/
def Literal.Allowed : Literal → Prop
  | .numeral _ => True
  | .name name => name ∉ keywords
  | .text _ => True
  | .list items => items.Allowed
  | .object members => members.Allowed

/-- No name in the values of a list is a keyword. -/
def Items.Allowed : Items → Prop
  | .nil => True
  | .cons item _ rest => item.Allowed ∧ rest.Allowed

/-- No name in the values of members is a keyword. -/
def Members.Allowed : Members → Prop
  | .nil => True
  | .cons _ value _ rest => value.Allowed ∧ rest.Allowed

end

/-! ### Arguments and fields -/

/-- An argument of a field. -/
structure NotedArgument where
  /-- Its name. -/
  name : String
  /-- Its type. -/
  type : TypeExpr
  /-- Its default value, if it has one. -/
  default : Option Literal
  /-- The number of commas behind it. -/
  commas : Nat

/-- How a default value is written behind a type. -/
def defaultLexemes : Option Literal → List Lexeme
  | none => []
  | some l => .sign '=' :: l.lexemes

/-- How an argument is written. -/
def NotedArgument.lexemes (a : NotedArgument) : List Lexeme :=
  .word a.name :: .sign ':' :: (plain a.type.tokens ++
    (defaultLexemes a.default ++ plain (SchemaSyntax.commas a.commas)))

/-- The argument without its default value. -/
def NotedArgument.bare (a : NotedArgument) : ArgumentDef := ⟨a.name, a.type, a.commas⟩

/-- Neither the type of an argument nor its default value has a keyword in it. -/
def NotedArgument.Allowed (a : NotedArgument) : Prop :=
  a.type.name ∉ keywords ∧ ∀ l, a.default = some l → l.Allowed

/-- A field of a type. -/
structure NotedField where
  /-- Its description, if it has one. -/
  description : Option (List Char)
  /-- Its name. -/
  name : String
  /-- Its arguments between parentheses, if it takes any. -/
  arguments : Option (List NotedArgument)
  /-- Its type. -/
  type : TypeExpr
  /-- The number of commas behind it. -/
  commas : Nat

/-- How a description is written. -/
def descriptionLexemes : Option (List Char) → List Lexeme
  | none => []
  | some content => [.quoted content]

/-- How the arguments of a field are written. -/
def argumentLexemes : Option (List NotedArgument) → List Lexeme
  | none => []
  | some arguments => .sign '(' :: (arguments.flatMap NotedArgument.lexemes ++ [.sign ')'])

/-- How a field is written. -/
def NotedField.lexemes (f : NotedField) : List Lexeme :=
  descriptionLexemes f.description ++ .word f.name :: (argumentLexemes f.arguments
    ++ .sign ':' :: (plain f.type.tokens ++ plain (SchemaSyntax.commas f.commas)))

/-- The field without its notes. -/
def NotedField.bare (f : NotedField) : FieldDef :=
  ⟨f.name, f.arguments.map (List.map NotedArgument.bare), f.type, f.commas⟩

/-- Neither the type of a field nor one of its arguments has a keyword in it. -/
def NotedField.Allowed (f : NotedField) : Prop :=
  f.type.name ∉ keywords ∧
    ∀ arguments, f.arguments = some arguments → ∀ a ∈ arguments, a.Allowed

/-! ### Definitions -/

/-- A definition of a schema. -/
inductive NotedDefinition
  /-- A type with fields. -/
  | object (kind : ObjectKind) (name : String) (interfaces : Option (String × List Token))
      (fields : List NotedField)
  /-- Anything else, which has no notes. -/
  | other (d : Definition) (plain : d.object? = none)

namespace NotedDefinition

/-- How a definition is written. -/
def lexemes : NotedDefinition → List Lexeme
  | object kind name interfaces fields =>
    .word kind.keyword :: .word name :: (plain (Definition.interfaceTokens interfaces)
      ++ .sign '\x7b' :: (fields.flatMap NotedField.lexemes ++ [.sign '\x7d']))
  | other d _ => plain d.tokens

/-- The definition without its notes. -/
def bare : NotedDefinition → Definition
  | object kind name interfaces fields => .object kind name interfaces (fields.map NotedField.bare)
  | other d _ => d

/-- The fields of a type. -/
def fields : NotedDefinition → List NotedField
  | object _ _ _ fields => fields
  | other _ _ => []

/-- The descriptions in a type. -/
def descriptions (d : NotedDefinition) : List (List Char) :=
  d.fields.filterMap NotedField.description

/-- The default values in a type. -/
def defaults (d : NotedDefinition) : List Literal :=
  d.fields.flatMap fun f => (f.arguments.getD []).filterMap NotedArgument.default

theorem mem_defaults {d : NotedDefinition} {l : Literal} :
    l ∈ d.defaults ↔ ∃ f ∈ d.fields, ∃ arguments, f.arguments = some arguments ∧
      ∃ a ∈ arguments, a.default = some l := by
  simp only [defaults, List.mem_flatMap, List.mem_filterMap]
  refine exists_congr fun f => and_congr_right fun _ => ?_
  cases f.arguments <;> simp

/-- What is written behind the keyword. -/
def tail (d : NotedDefinition) : List Lexeme := d.lexemes.tail

theorem lexemes_eq (d : NotedDefinition) : d.lexemes = .word d.bare.keyword :: d.tail := by
  cases d with
  | object kind name interfaces fields => rfl
  | other d plain => rw [tail, lexemes, d.tokens_eq]; rfl

/-- No name of a definition is a keyword, save those of fields, arguments and members. -/
def Allowed (d : NotedDefinition) : Prop := d.bare.Allowed ∧ ∀ f ∈ d.fields, f.Allowed

end NotedDefinition

/-- How definitions are written. -/
def lexemesOf (definitions : List NotedDefinition) : List Lexeme :=
  definitions.flatMap NotedDefinition.lexemes

/-- The descriptions in some definitions. -/
def descriptionsOf (definitions : List NotedDefinition) : List (List Char) :=
  definitions.flatMap NotedDefinition.descriptions

/-! ### Without notes -/

/-- An argument without a default value. -/
def ArgumentDef.noted (a : ArgumentDef) : NotedArgument := ⟨a.name, a.type, none, a.commas⟩

/-- A field without notes. -/
def FieldDef.noted (f : FieldDef) : NotedField :=
  ⟨none, f.name, f.arguments.map (List.map ArgumentDef.noted), f.type, f.commas⟩

/-- A definition without notes. -/
def Definition.noted : Definition → NotedDefinition
  | object kind name interfaces fields => .object kind name interfaces (fields.map FieldDef.noted)
  | enum name braces values => .other (.enum name braces values) rfl
  | union name colon bar first others => .other (.union name colon bar first others) rfl
  | scalar name => .other (.scalar name) rfl

@[simp] theorem ArgumentDef.lexemes_noted (a : ArgumentDef) : a.noted.lexemes = plain a.tokens := by
  simp [noted, NotedArgument.lexemes, tokens, defaultLexemes]

@[simp] theorem FieldDef.lexemes_noted (f : FieldDef) : f.noted.lexemes = plain f.tokens := by
  obtain ⟨name, arguments, type, n⟩ := f
  cases arguments <;>
    simp [noted, NotedField.lexemes, tokens, descriptionLexemes, argumentLexemes, argumentTokens,
      List.flatMap_map, plain_flatMap]

@[simp] theorem Definition.lexemes_noted (d : Definition) : d.noted.lexemes = plain d.tokens := by
  cases d <;> simp [noted, NotedDefinition.lexemes, tokens, List.flatMap_map, plain_flatMap]

@[simp] theorem FieldDef.bare_noted (f : FieldDef) : f.noted.bare = f := by
  obtain ⟨name, arguments, type, n⟩ := f
  cases arguments with
  | none => rfl
  | some arguments =>
    have hbare : NotedArgument.bare ∘ ArgumentDef.noted = id := rfl
    simp [noted, NotedField.bare, hbare]

@[simp] theorem Definition.bare_noted (d : Definition) : d.noted.bare = d := by
  have hbare : NotedField.bare ∘ FieldDef.noted = id := funext FieldDef.bare_noted
  cases d <;> simp [noted, NotedDefinition.bare, hbare]

/-- What may be written may be written as it is. -/
theorem Definition.Allowed.noted {d : Definition} (h : d.Allowed) : d.noted.Allowed := by
  refine ⟨by rwa [bare_noted], ?_⟩
  cases d with
  | object kind name interfaces fields =>
    intro f hf
    obtain ⟨f, hfields, rfl⟩ := List.mem_map.1 hf
    obtain ⟨htype, harguments⟩ := h.2.2 f hfields
    refine ⟨htype, fun arguments hnoted a ha => ?_⟩
    obtain ⟨bare, hbare, rfl⟩ := Option.map_eq_some_iff.1 hnoted
    obtain ⟨a, hmem, rfl⟩ := List.mem_map.1 ha
    exact ⟨harguments bare hbare a hmem, nofun⟩
  | _ => exact nofun

@[simp] theorem lexemesOf_noted (definitions : List Definition) :
    lexemesOf (definitions.map Definition.noted) = plain (tokensOf definitions) := by
  simp [lexemesOf, tokensOf, List.flatMap_map, plain_flatMap]

@[simp] theorem map_bare_noted (definitions : List Definition) :
    (definitions.map Definition.noted).map NotedDefinition.bare = definitions := by
  simp [Function.comp_def]

end SchemaSyntax

end GraphWalk
