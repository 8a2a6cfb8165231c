import GraphWalk.Schema.Basic
import GraphWalk.Schema.Declaration
import GraphWalk.Schema.Comments

/-!
# From declarations to a schema

The declarations of a text become a schema in two steps.  First the names: declared
scalars, and what every enum and union stands for.  Then the fields, whose types
are looked up among those names.

## Main definitions

* `Declarations` — what a text declares.
* `Names`, `Names.ofDeclarations` — the names that types are looked up among.
* `Names.typeSpec`, `Names.fieldSpec` — what a mentioned type and a declared field are.
* `Schema.ofDeclarations`, `Schema.ofText`, `Schema.build?` — the schema of a text.
-/

namespace GraphWalk

/-- What a schema text declares, each kind in the order of the text. -/
structure Declarations where
  /-- The types with their fields. -/
  types : List (String × List FieldDecl) := []
  /-- The enums. -/
  enums : List String := []
  /-- The unions with their first alternatives. -/
  unions : List (String × String) := []
  /-- The scalars. -/
  scalars : List String := []
  deriving Inhabited, Repr

namespace Declarations

/-- The declarations of a text without comments. -/
def ofChars (cs : List Char) : Declarations where
  types := (Declaration.objectTypes.scan false cs).map fun (name, body) =>
    (name, FieldDecl.read body)
  enums := Declaration.enums.scan false cs
  unions := Declaration.unions.scan false cs
  scalars := Declaration.scalars.scan false cs

/-- A type with fields is declared under the name. -/
def declaresType (d : Declarations) (name : String) : Bool :=
  d.types.any fun type => type.1 == name

end Declarations

/-- The names that mentioned types are looked up among. -/
structure Names where
  /-- What enums and unions stand for. -/
  aliases : Dict String := []
  /-- The declared scalars. -/
  scalars : Dict Unit := []
  deriving Inhabited, Repr

namespace Names

/-- The aliases of enums: each stands for text. -/
def enumAliases (enums : List String) : Dict String :=
  enums.foldl (fun aliases name => Dict.insert aliases name Schema.textScalar) []

/-- What a union stands for: its first alternative if that is a declared type, otherwise what the
alternative itself stands for, and text when it stands for nothing. -/
def unionAlias (d : Declarations) (aliases : Dict String) (first : String) : String :=
  if d.declaresType first then first else (Dict.get? aliases first).getD Schema.textScalar

/-- The names of some declarations.  Unions come after enums, each in its turn. -/
def ofDeclarations (d : Declarations) : Names where
  aliases := d.unions.foldl
    (fun aliases (name, first) => Dict.insert aliases name (unionAlias d aliases first))
    (enumAliases d.enums)
  scalars := Dict.ofList (d.scalars.map fun name => (name, ()))

/-- A built-in or a declared scalar. -/
def isScalar (n : Names) (name : String) : Bool :=
  Schema.builtinScalars.contains name || Dict.contains n.scalars name

/-- What a type is that is mentioned by its own name. -/
def byName (n : Names) (name : String) (isList : Bool) : FieldSpec :=
  if n.isScalar name then .scalar name
  else if isList then .list name
  else .object name

/-- What a mentioned type is.  An alias of text is a scalar under its own name. -/
def typeSpec (n : Names) (type : TypeUse) : FieldSpec :=
  match Dict.get? n.aliases type.name with
  | some target =>
    if target = Schema.textScalar then .scalar type.name else n.byName target type.isList
  | none => n.byName type.name type.isList

/-- What is mentioned takes no arguments. -/
theorem isPlain_byName (n : Names) (name : String) (isList : Bool) :
    (n.byName name isList).IsPlain := by
  unfold byName
  split
  · trivial
  · split
    · trivial
    · trivial

theorem isPlain_typeSpec (n : Names) (type : TypeUse) : (n.typeSpec type).IsPlain := by
  unfold typeSpec
  split
  · split
    · trivial
    · exact n.isPlain_byName _ _
  · exact n.isPlain_byName _ _

/-- What some arguments are, by their names. -/
def argumentSpecs (n : Names) (arguments : List FieldDecl) : Dict FieldSpec :=
  Dict.ofList (arguments.map fun argument => (argument.name, n.typeSpec argument.type))

/-- What a declared field is. -/
def fieldSpec (n : Names) (decl : FieldDecl) : FieldSpec :=
  match decl.arguments with
  | none => n.typeSpec decl.type
  | some arguments => .callable (n.argumentSpecs arguments) (n.typeSpec decl.type)

/-- A declared field takes arguments only if some were declared. -/
theorem exists_of_fieldSpec_eq_callable {n : Names} {decl : FieldDecl}
    {arguments : Dict FieldSpec} {returns : FieldSpec}
    (h : n.fieldSpec decl = .callable arguments returns) :
    ∃ declared, decl.arguments = some declared ∧ arguments = n.argumentSpecs declared ∧
      returns = n.typeSpec decl.type := by
  unfold fieldSpec at h
  split at h
  · have hplain := n.isPlain_typeSpec decl.type
    rw [h] at hplain
    exact hplain.elim
  · next declared hdeclared =>
    obtain ⟨rfl, rfl⟩ := FieldSpec.callable.inj h
    exact ⟨declared, hdeclared, rfl, rfl⟩

/-- The fields of a declared type. -/
def fieldTable (n : Names) (decls : List FieldDecl) : FieldTable :=
  Dict.ofList (decls.map fun decl => (decl.name, n.fieldSpec decl))

end Names

namespace Schema

/-- The types with an empty one for every root that is missing. -/
def withRoots (types : Dict FieldTable) : Dict FieldTable :=
  rootTypes.foldl
    (fun types root => if Dict.contains types root then types else Dict.insert types root []) types

/-- The schema of some declarations.  Of several types of one name the last one counts. -/
def ofDeclarations (d : Declarations) : Schema :=
  let names := Names.ofDeclarations d
  { types := withRoots (Dict.ofList (d.types.map fun (name, decls) =>
      (name, names.fieldTable decls)))
    aliases := names.aliases
    scalars := names.scalars }

/-- The schema of a text.  What cannot be read is left out. -/
def ofChars (cs : List Char) : Schema :=
  ofDeclarations (Declarations.ofChars (strip cs))

/-- The schema of a text.  What cannot be read is left out. -/
def ofText (text : String) : Schema :=
  ofChars text.toList

/-- The schema of a text; none when there is no text, or nothing but blanks. -/
def build? (text : Option String) : Option Schema :=
  match text with
  | some text => if Text.isBlankText text.toList then none else some (ofText text)
  | none => none

end Schema

end GraphWalk
