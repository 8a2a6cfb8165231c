import GraphWalk.Proofs.Schema.FieldNames
import GraphWalk.Proofs.Schema.Ways

/-!
# What a schema refers to

A text may declare one name as a type, a scalar, an enum and a union at once, refer to names
that it does not declare, and break off anywhere.  The schema that is read from it is sound all
the same: names are told scalars from types after all declarations have been read, and by one
rule, whether they stand in a field, in an argument or behind a union.

A field takes arguments only itself: neither what it returns nor any of its arguments takes
further ones.  So on the way of a path arguments are passed over at most once in a row.

## Main definitions

* `Schema.Sound`, `Schema.SoundField` — where a schema may lead.
* `Schema.WellFormed` — every root is there, and fields and aliases are sound.
* `Schema.Meets` — a field that is looked up on the way of a path.

## Main results

* `Names.target_of_alias` — an alias stands for text, or for a declared type.
* `Schema.sound_typeSpec` — **whatever is mentioned leads to where a schema may lead.**
* `Schema.SoundField.isFlat` — a sound field takes arguments only itself.
* `Schema.wellFormed_ofText` — **whatever the text, the schema is well formed.**
-/

namespace GraphWalk

/-! ### Aliases -/

/-- **An alias stands for text, or for a declared type**, however unions are chained. -/
theorem Names.target_of_alias {d : Declarations} {name target : String}
    (h : Dict.get? (Names.ofDeclarations d).aliases name = some target) :
    target = Schema.textScalar ∨ d.declaresType target = true := by
  apply Dict.forall_get?_foldl_insert (p := fun target =>
    target = Schema.textScalar ∨ d.declaresType target = true) _ d.unions _ name target h
  · -- a union stands for its first alternative, or for what that stands for already
    intro aliases union haliases
    dsimp only [Names.unionAlias]
    split
    · next hdeclared => exact .inr hdeclared
    · cases hfirst : Dict.get? aliases union.2 with
      | none => exact .inl rfl
      | some found => exact haliases union.2 found hfirst
  · apply Dict.forall_get?_foldl_insert
    · exact fun _ _ _ => .inl rfl
    · exact nofun

namespace Schema

variable {s : Schema} {d : Declarations} {type found : TypeRef} {spec : FieldSpec}

/-! ### Where a schema may lead -/

/-- A schema may lead to a scalar that is built in, declared, or an alias of text, and to objects
and lists of anything but built-in and declared scalars.  Nothing else is led to, so no arguments
are taken there. -/
def Sound (s : Schema) : FieldSpec → Prop
  | .scalar name => s.isScalar name = true ∨ s.alias? name = some "String"
  | .object name => s.isScalar name = false
  | .list name => s.isScalar name = false
  | .callable _ _ => False

/-- A field leads to where the schema may lead, and so do its arguments if it takes any. -/
inductive SoundField (s : Schema) : FieldSpec → Prop
  /-- A field without arguments. -/
  | plain {spec : FieldSpec} (h : s.Sound spec) : SoundField s spec
  /-- A field with arguments. -/
  | callable {arguments : Dict FieldSpec} {returns : FieldSpec} (hreturns : s.Sound returns)
      (harguments : ∀ argument ∈ arguments, s.Sound argument.2) :
      SoundField s (.callable arguments returns)

/-- Every root is there, every field is sound, and every alias stands for something. -/
structure WellFormed (s : Schema) : Prop where
  /-- The three roots are types. -/
  roots : ∀ root ∈ ["Query", "Mutation", "Subscription"], (s.fields? root).isSome = true
  /-- The fields of every type are sound. -/
  fields : ∀ type field spec, s.field? type field = some spec → s.SoundField spec
  /-- An alias stands for text, or for a type that is there. -/
  aliases : ∀ name target, s.alias? name = some target →
    target = "String" ∨ (s.fields? target).isSome = true

theorem Sound.isPlain (h : s.Sound spec) : spec.IsPlain := by
  cases spec with
  | callable arguments returns => exact h
  | _ => trivial

theorem Sound.output_eq (h : s.Sound spec) : spec.output = spec := by
  cases spec with
  | callable arguments returns => exact h.elim
  | _ => rfl

/-- A sound field takes arguments only itself. -/
theorem SoundField.isFlat (h : s.SoundField spec) : spec.IsFlat := by
  cases h with
  | plain h =>
    cases spec with
    | callable arguments returns => exact h.elim
    | _ => trivial
  | callable hreturns harguments =>
    exact ⟨hreturns.isPlain, fun argument hmem => (harguments argument hmem).isPlain⟩

/-- What a sound field comes to is the field itself, or what it returns. -/
theorem SoundField.output_cases (h : s.SoundField spec) :
    s.Sound spec.output ∧
      (spec.output = spec ∨ ∃ arguments, spec = .callable arguments spec.output) := by
  cases h with
  | plain h =>
    rw [h.output_eq]
    exact ⟨h, .inl rfl⟩
  | @callable arguments returns hreturns _ =>
    rw [FieldSpec.output_callable, hreturns.output_eq]
    exact ⟨hreturns, .inr ⟨arguments, rfl⟩⟩

theorem SoundField.outputType (h : s.SoundField spec) : s.Sound spec.outputType.spec := by
  rw [spec.spec_outputType]
  exact h.output_cases.1

/-! ### From names to references -/

/-- A name that is no alias of text is told by the scalars alone. -/
theorem sound_byName (d : Declarations) (name : String) (isList : Bool) :
    (ofDeclarations d).Sound ((Names.ofDeclarations d).byName name isList) := by
  have hscalar : (ofDeclarations d).isScalar name = (Names.ofDeclarations d).isScalar name := rfl
  rw [Names.byName]
  split
  · next h => exact .inl (hscalar.trans h)
  · next h =>
    have hnot : (ofDeclarations d).isScalar name = false :=
      hscalar.trans (Bool.eq_false_iff.2 h)
    split
    · exact hnot
    · exact hnot

/-- **Whatever is mentioned leads to where a schema may lead.** -/
theorem sound_typeSpec (d : Declarations) (use : TypeUse) :
    (ofDeclarations d).Sound ((Names.ofDeclarations d).typeSpec use) := by
  rw [Names.typeSpec]
  split
  · next target halias =>
    split
    · next htext =>
      rw [htext] at halias
      exact .inr halias
    · exact sound_byName d target use.isList
  · exact sound_byName d use.name use.isList

theorem soundField_fieldSpec (d : Declarations) (decl : FieldDecl) :
    (ofDeclarations d).SoundField ((Names.ofDeclarations d).fieldSpec decl) := by
  rw [Names.fieldSpec]
  split
  · exact .plain (sound_typeSpec d decl.type)
  · next arguments _ =>
    apply SoundField.callable (sound_typeSpec d decl.type)
    intro argument hmem
    obtain ⟨declared, -, rfl⟩ := List.mem_map.1 (Dict.mem_of_mem_ofList hmem)
    exact sound_typeSpec d declared.type

/-! ### Ways -/

/-- From where a schema may lead every way leads to where it may lead. -/
theorem WellFormed.sound_of_goOn (h : s.WellFormed) {names : List String}
    (htype : s.Sound type.spec) (hfound : s.goOn type names = some found) :
    s.Sound found.spec := by
  induction names generalizing type with
  | nil =>
    rw [goOn_nil] at hfound
    rw [← Option.some.inj hfound]
    exact htype
  | cons name names ih =>
    cases hleaf : type.isLeaf with
    | true =>
      rw [goOn_of_leaf hleaf] at hfound
      rw [← Option.some.inj hfound]
      exact htype
    | false =>
      rw [goOn_cons hleaf, Option.bind_eq_some_iff] at hfound
      obtain ⟨spec, hspec, hrest⟩ := hfound
      exact ih (h.fields type.name name spec hspec).outputType hrest

/-- The root is an object of its type even where a scalar is declared under that name, so it takes
a first field to lead to where a schema may lead. -/
theorem WellFormed.sound_of_resolve (h : s.WellFormed) {path : Path} (hpath : path.fields ≠ [])
    (hfound : s.resolve path = some found) : s.Sound found.spec := by
  rw [resolve_eq_goOn] at hfound
  obtain ⟨name, names, hfields⟩ := List.exists_cons_of_ne_nil hpath
  rw [hfields, goOn_cons (TypeRef.isLeaf_object entryType), Option.bind_eq_some_iff] at hfound
  obtain ⟨spec, hspec, hrest⟩ := hfound
  exact h.sound_of_goOn (h.fields entryType name spec hspec).outputType hrest

/-- The field is looked up on the way of the path: it is kept under the next name by a type that the
names before it lead to. -/
def Meets (s : Schema) (path : Path) (spec : FieldSpec) : Prop :=
  ∃ init field more name, path.fields = init ++ field :: more ∧ s.Reaches (.ofFields init) name ∧
    s.field? name field = some spec

/-- **Whatever the text, the schema is well formed.**

It has the three roots.  Every field leads to a scalar, an object or a list, or takes arguments and
returns what leads there, and each argument leads to a scalar, an object or a list; so only a field
itself takes arguments.  A scalar is built in, declared, or an alias of text, and nothing else is
built in or declared as a scalar.  Every alias stands for text or for a type that is there.

So wherever a field is looked up on the way of a path, at most the arguments of this field are
passed over, and nothing is met behind them that takes arguments again; no way goes on from a
scalar; and a way is lost for no other reason than that a type lacks a field. -/
theorem wellFormed_ofText (text : String) :
    (ofText text).WellFormed ∧
    (∀ type field spec, (ofText text).field? type field = some spec → spec.IsFlat) ∧
    (∀ path spec, (ofText text).Meets path spec → spec.output.IsPlain ∧
      (spec.output = spec ∨ ∃ arguments, spec = .callable arguments spec.output)) ∧
    (∀ path name, path.fields ≠ [] → (ofText text).Reaches path name →
      (ofText text).isScalar name = false) ∧
    (∀ path, (ofText text).resolve path = none ↔
      ∃ init field more name, path.fields = init ++ field :: more ∧
        (ofText text).Reaches (.ofFields init) name ∧
        (ofText text).field? name field = none) := by
  have hwell : (ofText text).WellFormed := by
    refine ⟨?_, ?_, ?_⟩
    · intro root hroot
      exact isSome_fields?_of_mem_rootTypes hroot _
    · intro type field spec hspec
      obtain ⟨body, decl, -, -, rfl⟩ := exists_decl_of_field? hspec
      exact soundField_fieldSpec _ decl
    · intro name target htarget
      rcases Names.target_of_alias htarget with htext | hdeclared
      · exact .inl htext
      · exact .inr (isSome_fields?_of_declaresType hdeclared)
  refine ⟨hwell, ?flat, ?met, ?reached, fun path => resolve_eq_none_iff⟩
  case flat =>
    intro type field spec hspec
    exact (hwell.fields type field spec hspec).isFlat
  case met =>
    rintro path spec ⟨init, field, more, name, -, -, hspec⟩
    obtain ⟨hsound, hpassed⟩ := (hwell.fields name field spec hspec).output_cases
    exact ⟨hsound.isPlain, hpassed⟩
  case reached =>
    intro path name hpath hreaches
    rcases hreaches with hfound | hfound
    · exact hwell.sound_of_resolve hpath hfound
    · exact hwell.sound_of_resolve hpath hfound

/-- A name that is declared as a scalar too is one, also behind a union. -/
example : (ofText "union U = T type T { x: Int } scalar T type Query { u: [U] }").field? "Query" "u"
    = some (.scalar "T") := by decide +kernel

end Schema

end GraphWalk
