import GraphWalk.Proofs.Schema.Comments
import GraphWalk.Proofs.Schema.Kinds
import GraphWalk.Proofs.Schema.Roots

/-!
# Reading a schema back

A schema that is written down in its grammar, with any layout, is read back as it is meant.
Four recognisers have found the definitions; what is left is that the tables they are put in
agree with the definitions, name by name.

## Main definitions

* `declarationsOf` — what is declared by some definitions.
* `Chained` — a union of a union that stands for a type.

## Main results

* `get?_ofList_kind` — a table of the definitions of one kind.
* `aliases_eq`, `contains_scalars` — what the names of enums, unions and scalars stand for.
* `typeSpec_use` — **a mentioned type leads where it should.**
* `schemaOf_perm` — **the order of the definitions does not matter.**
* `strip_text` — nothing is taken for a comment or a description.
* `ofText_tokens` — **what is written is read back**, whatever the layout.
-/

namespace GraphWalk

namespace SchemaSyntax

open Declaration

variable {definitions : List Definition} {d : Definition} {name : String}

/-! ### The definition of a name -/

/-- The definition that is found is one of the definitions, and of that name. -/
theorem mem_of_definitionOf? (h : definitionOf? definitions name = some d) :
    d ∈ definitions ∧ d.name = name := by
  have hname := List.find?_some h
  exact ⟨List.mem_of_find?_eq_some h, eq_of_beq hname⟩

theorem definitionOf?_cons (d : Definition) (definitions : List Definition) (name : String) :
    definitionOf? (d :: definitions) name
      = if d.name = name then some d else definitionOf? definitions name := by
  rw [definitionOf?, List.find?_cons]
  by_cases h : d.name = name
  · rw [if_pos h, beq_iff_eq.2 h]
  · rw [if_neg h, beq_eq_false_iff_ne.2 h]
    rfl

section Tables

variable {α γ : Type} {kind? : Definition → Option γ} {nameOf : γ → String}
variable (hname : ∀ d x, kind? d = some x → nameOf x = d.name) (value : γ → α)

include hname

theorem keys_kind_subset (definitions : List Definition) :
    Dict.keys ((definitions.filterMap kind?).map fun x => (nameOf x, value x))
      ⊆ definitions.map Definition.name := by
  intro key hkey
  simp only [Dict.keys, List.map_map, List.mem_map, List.mem_filterMap] at hkey ⊢
  obtain ⟨x, ⟨d, hd, hx⟩, rfl⟩ := hkey
  exact ⟨d, hd, (hname d x hx).symm⟩

theorem nodup_keys_kind (hdistinct : (definitions.map Definition.name).Nodup) :
    (Dict.keys ((definitions.filterMap kind?).map fun x => (nameOf x, value x))).Nodup := by
  induction definitions with
  | nil => exact List.nodup_nil
  | cons d definitions ih =>
    obtain ⟨hnew, hdistinct⟩ := List.nodup_cons.1 hdistinct
    rw [List.filterMap_cons]
    cases hkind : kind? d with
    | none => exact ih hdistinct
    | some x =>
      refine List.nodup_cons.2 ⟨fun hmem => hnew ?_, ih hdistinct⟩
      rw [← hname d x hkind]
      exact keys_kind_subset hname value definitions hmem

theorem get?_kind (hdistinct : (definitions.map Definition.name).Nodup) (key : String) :
    Dict.get? ((definitions.filterMap kind?).map fun x => (nameOf x, value x)) key
      = (definitionOf? definitions key).bind fun d => (kind? d).map value := by
  induction definitions with
  | nil => rfl
  | cons d definitions ih =>
    obtain ⟨hnew, hdistinct⟩ := List.nodup_cons.1 hdistinct
    rw [List.filterMap_cons, definitionOf?_cons]
    cases hkind : kind? d with
    | none =>
      dsimp only
      split
      · next hkey =>
        rw [Option.bind_some, hkind, Option.map_none, Dict.get?_eq_none_iff, ← hkey]
        exact fun hmem => hnew (keys_kind_subset hname value definitions hmem)
      · exact ih hdistinct
    | some x =>
      dsimp only
      rw [List.map_cons, Dict.get?_cons, hname d x hkind]
      by_cases hkey : d.name = key
      · rw [if_pos hkey.symm, if_pos hkey, Option.bind_some, hkind, Option.map_some]
      · rw [if_neg (Ne.symm hkey), if_neg hkey, ih hdistinct]

/-- **A table of the definitions of one kind** has under a name what its definition says. -/
theorem get?_ofList_kind (hdistinct : (definitions.map Definition.name).Nodup) (key : String) :
    Dict.get? (Dict.ofList ((definitions.filterMap kind?).map fun x => (nameOf x, value x))) key
      = (definitionOf? definitions key).bind fun d => (kind? d).map value := by
  rw [Dict.get?_ofList_of_nodup (nodup_keys_kind hname value hdistinct),
    get?_kind hname value hdistinct]

end Tables

/-! ### What names stand for -/

/-- What is declared, as it is read. -/
def declarationsOf (definitions : List Definition) : Declarations where
  types := definitions.filterMap Definition.declared?
  enums := definitions.filterMap Definition.enum?
  unions := definitions.filterMap Definition.union?
  scalars := definitions.filterMap Definition.scalar?

theorem name_of_declared? (d : Definition) (x : String × List FieldDecl)
    (h : d.declared? = some x) : x.1 = d.name := by
  cases d <;> cases h
  rfl

theorem name_of_object? (d : Definition) (x : String × List FieldDef) (h : d.object? = some x) :
    x.1 = d.name := by
  cases d <;> cases h
  rfl

theorem name_of_enum? (d : Definition) (x : String) (h : d.enum? = some x) : x = d.name := by
  cases d <;> cases h
  rfl

theorem name_of_union? (d : Definition) (x : String × String) (h : d.union? = some x) :
    x.1 = d.name := by
  cases d <;> cases h
  rfl

theorem name_of_scalar? (d : Definition) (x : String) (h : d.scalar? = some x) : x = d.name := by
  cases d <;> cases h
  rfl

theorem name_of_aliasOf? (definitions : List Definition) (d : Definition) (x : String × String)
    (h : (aliasOf? definitions d).map (fun target => (d.name, target)) = some x) :
    x.1 = d.name := by
  obtain ⟨target, -, rfl⟩ := Option.map_eq_some_iff.1 h
  rfl

theorem any_name_eq {α : Type} (entries : Dict α) (name : String) :
    (entries.any fun entry => entry.1 == name) = (Dict.get? entries name).isSome := by
  induction entries with
  | nil => rfl
  | cons entry entries ih =>
    obtain ⟨key, value⟩ := entry
    rw [List.any_cons, ih, Dict.get?_cons]
    by_cases h : key = name
    · rw [if_pos h.symm, beq_iff_eq.2 h, Bool.true_or, Option.isSome_some]
    · rw [if_neg (Ne.symm h), beq_eq_false_iff_ne.2 h, Bool.false_or]

theorem byName_of_not_isScalar {n : Names} {isList : Bool} (h : n.isScalar name = false) :
    n.byName name isList = objectRef name isList := by
  rw [Names.byName, h, if_neg Bool.false_ne_true, objectRef]

/-- What a union stands for by its first alternative. -/
def unionTarget (definitions : List Definition) (first : String) : String :=
  if definesObject definitions first then first else Schema.textScalar

/-- A union has another as its first alternative, and that one stands for a type. -/
def Chained (definitions : List Definition) : Prop :=
  ∃ name first target, (name, first) ∈ definitions.filterMap Definition.union? ∧
    (first, target) ∈ definitions.filterMap Definition.union? ∧
      definesObject definitions target = true ∧ target ≠ Schema.textScalar

theorem WellFormed.not_chained (hw : WellFormed definitions) : ¬ Chained definitions := by
  rintro ⟨name, first, target, hunion, hother, -⟩
  exact hw.firsts name first hunion target hother

theorem enumAliases_eq (definitions : List Definition) :
    Names.enumAliases (definitions.filterMap Definition.enum?)
      = Dict.ofList ((definitions.filterMap Definition.enum?).map fun name =>
          (name, Schema.textScalar)) := by
  rw [Names.enumAliases, Dict.ofList, List.foldl_map]

section Names

variable (hdistinct : (definitions.map Definition.name).Nodup)

include hdistinct

/-- A name is that of a declared type if and only if it is defined as one. -/
theorem declaresType_eq (name : String) :
    (declarationsOf definitions).declaresType name = definesObject definitions name := by
  have hget := get?_kind name_of_declared? Prod.snd hdistinct name
  rw [List.map_id'] at hget
  rw [Declarations.declaresType, any_name_eq]
  show (Dict.get? (definitions.filterMap Definition.declared?) name).isSome = _
  rw [hget, definesObject]
  cases definitionOf? definitions name with
  | none => rfl
  | some d => cases d <;> rfl

/-- A union stands for its first alternative or for text, unless that alternative has been given
another meaning. -/
theorem unionAlias_eq {aliases : Dict String} {first : String}
    (h : (Dict.get? aliases first).getD Schema.textScalar = Schema.textScalar) :
    Names.unionAlias (declarationsOf definitions) aliases first
      = unionTarget definitions first := by
  rw [Names.unionAlias, declaresType_eq hdistinct, h, unionTarget]

/-- As long as no union stands for a type that is the first alternative of another, each union
stands for its first alternative or for text. -/
theorem foldl_unionAlias (unions : List (String × String)) (aliases : Dict String)
    (hfirst : ∀ u ∈ unions, (Dict.get? aliases u.2).getD Schema.textScalar = Schema.textScalar)
    (hother : ∀ u ∈ unions, ∀ v ∈ unions, u.2 = v.1 →
      unionTarget definitions v.2 = Schema.textScalar) :
    unions.foldl (fun aliases (name, first) => Dict.insert aliases name
        (Names.unionAlias (declarationsOf definitions) aliases first)) aliases
      = (unions.map fun u => (u.1, unionTarget definitions u.2)).foldl
          (fun aliases entry => Dict.insert aliases entry.1 entry.2) aliases := by
  induction unions generalizing aliases with
  | nil => rfl
  | cons u unions ih =>
    obtain ⟨name, first⟩ := u
    rw [List.foldl_cons, List.map_cons, List.foldl_cons]
    dsimp only
    rw [unionAlias_eq hdistinct (hfirst _ List.mem_cons_self)]
    -- where the union that was put in is the first alternative of one to come it stands for text
    refine ih _ (fun v hv => ?_) fun v hv w hw =>
      hother v (List.mem_cons_of_mem _ hv) w (List.mem_cons_of_mem _ hw)
    rw [Dict.get?_insert]
    split
    · next heq =>
      rw [Option.getD_some]
      exact hother v (List.mem_cons_of_mem _ hv) _ List.mem_cons_self heq
    · exact hfirst v (List.mem_cons_of_mem _ hv)

theorem get?_enums (key : String) :
    Dict.get? (Dict.ofList ((definitions.filterMap Definition.enum?).map fun name =>
        (name, Schema.textScalar))) key
      = (definitionOf? definitions key).bind fun d => d.enum?.map fun _ => Schema.textScalar :=
  get?_ofList_kind name_of_enum? (fun _ => Schema.textScalar) hdistinct key

/-- Before the unions every name stands for text, if for anything. -/
theorem getD_enumAliases (key : String) :
    (Dict.get? (Names.enumAliases (definitions.filterMap Definition.enum?)) key).getD
      Schema.textScalar = Schema.textScalar := by
  rw [enumAliases_eq, get?_enums hdistinct]
  cases definitionOf? definitions key with
  | none => rfl
  | some d => cases d <;> rfl

/-- A name is a declared scalar if and only if it is defined as one. -/
theorem contains_scalars (key : String) :
    Dict.contains (Names.ofDeclarations (declarationsOf definitions)).scalars key
      = (definitionOf? definitions key).any fun d => d.scalar?.isSome := by
  have hget := get?_ofList_kind name_of_scalar? (fun _ => ()) hdistinct key
  rw [Dict.contains]
  show (Dict.get? (Dict.ofList ((definitions.filterMap Definition.scalar?).map fun name =>
    (name, ()))) key).isSome = _
  rw [hget]
  cases definitionOf? definitions key with
  | none => rfl
  | some d => cases d <;> rfl

variable (hchained : ¬ Chained definitions)

include hchained

/-- The aliases that are read: those of enums, and behind them those of unions. -/
theorem aliases_eq_ofList :
    (Names.ofDeclarations (declarationsOf definitions)).aliases
      = Dict.ofList
          (((definitions.filterMap Definition.enum?).map fun name => (name, Schema.textScalar))
            ++ (definitions.filterMap Definition.union?).map fun u =>
              (u.1, unionTarget definitions u.2)) := by
  rw [Dict.ofList, List.foldl_append, ← Dict.ofList, ← enumAliases_eq]
  refine foldl_unionAlias hdistinct _ _ (fun u _ => getD_enumAliases hdistinct u.2)
    fun u hu v hv heq => ?_
  rw [unionTarget]
  split
  · next hobject =>
    exact not_not.1 fun htext => hchained ⟨u.1, u.2, v.2, hu, heq ▸ hv, hobject, htext⟩
  · rfl

/-- **A name is an alias if and only if it is that of an enum or a union.** -/
theorem get?_aliases (key : String) :
    Dict.get? (Names.ofDeclarations (declarationsOf definitions)).aliases key
      = (definitionOf? definitions key).bind (aliasOf? definitions) := by
  have hunions := get?_ofList_kind name_of_union? (fun u => unionTarget definitions u.2)
    hdistinct key
  have henums := get?_enums hdistinct key
  -- no name is both that of an enum and that of a union, so the order does not matter
  rw [aliases_eq_ofList hdistinct hchained, Dict.get?_ofList_append, hunions, henums]
  cases definitionOf? definitions key with
  | none => rfl
  | some d => cases d <;> rfl

theorem aliases_eq :
    (Names.ofDeclarations (declarationsOf definitions)).aliases
      = (schemaOf definitions).aliases := by
  have hascending := Dict.ascending_ofList
    (((definitions.filterMap Definition.enum?).map fun name => (name, Schema.textScalar))
      ++ (definitions.filterMap Definition.union?).map fun u =>
        (u.1, unionTarget definitions u.2))
  rw [← aliases_eq_ofList hdistinct hchained] at hascending
  refine Dict.ext_of_get? hascending (Dict.ascending_ofList _) fun key => ?_
  have hmeant := get?_ofList_kind (name_of_aliasOf? definitions) Prod.snd hdistinct key
  rw [List.map_id'] at hmeant
  rw [get?_aliases hdistinct hchained, schemaOf, hmeant]
  refine congrArg _ (funext fun d => ?_)
  rw [Option.map_map]
  exact Option.map_id'.symm

end Names

section Meaning

variable (hw : WellFormed definitions)

include hw

/-- What is defined is no built-in scalar. -/
theorem not_builtin (h : definitionOf? definitions name = some d) :
    Schema.builtinScalars.contains name = false := by
  obtain ⟨hd, rfl⟩ := mem_of_definitionOf? h
  exact Bool.eq_false_iff.2 fun hmem => hw.ours d hd (List.contains_iff_mem.1 hmem)

/-- A defined name is a scalar if and only if it is defined as one. -/
theorem isScalar_of_definition (h : definitionOf? definitions name = some d) :
    (Names.ofDeclarations (declarationsOf definitions)).isScalar name = d.scalar?.isSome := by
  rw [Names.isScalar, not_builtin hw h, contains_scalars hw.distinct, h, Bool.false_or,
    Option.any_some]

/-- What is defined as a type with fields is no scalar, and not the name of the scalar for text. -/
theorem of_definesObject (h : definesObject definitions name = true) :
    (Names.ofDeclarations (declarationsOf definitions)).isScalar name = false ∧
      name ≠ Schema.textScalar := by
  rw [definesObject] at h
  cases hdefinition : definitionOf? definitions name with
  | none =>
    rw [hdefinition] at h
    cases h
  | some d =>
    rw [hdefinition, Option.any_some] at h
    refine ⟨?_, ?_⟩
    · rw [isScalar_of_definition hw hdefinition]
      cases d with
      | object kind name interfaces fields => rfl
      | _ => cases h
    · rintro rfl
      exact absurd (not_builtin hw hdefinition) (by decide)

/-- **A mentioned type leads where it should.** -/
theorem typeSpec_use (type : TypeUse) :
    (Names.ofDeclarations (declarationsOf definitions)).typeSpec type
      = leadsTo definitions type.name type.isList := by
  rw [Names.typeSpec, get?_aliases hw.distinct hw.not_chained, leadsTo]
  cases hdefinition : definitionOf? definitions type.name with
  | none =>
    rw [Option.bind_none]
    dsimp only
    rw [Names.byName, Names.isScalar, contains_scalars hw.distinct, hdefinition, Option.any_none,
      Bool.or_false, objectRef]
    simp only [List.contains_iff_mem]
  | some d =>
    have hscalar := isScalar_of_definition hw hdefinition
    rw [Option.bind_some]
    cases d with
    | object kind name interfaces fields => exact byName_of_not_isScalar hscalar
    | enum name braces values => exact if_pos rfl
    | scalar name =>
      dsimp only [aliasOf?]
      rw [Names.byName, hscalar]
      rfl
    | union name colon bar first others =>
      dsimp only [aliasOf?]
      cases hobject : definesObject definitions first with
      | false => rfl
      | true =>
        obtain ⟨hfirst, htext⟩ := of_definesObject hw hobject
        exact (if_neg htext).trans (byName_of_not_isScalar hfirst)

/-! ### Fields and types -/

/-- **A field is what it should be.** -/
theorem fieldSpec_decl (f : FieldDef) :
    (Names.ofDeclarations (declarationsOf definitions)).fieldSpec f.decl
      = specOf definitions f := by
  obtain ⟨name, arguments, type, n⟩ := f
  have htype := typeSpec_use hw type.use
  cases arguments with
  | none => exact htype
  | some arguments =>
    have harguments : (Names.ofDeclarations (declarationsOf definitions)).argumentSpecs
          (FieldDecl.collect (arguments.map ArgumentDef.decl))
        = Dict.ofList (arguments.map fun a => (a.name, refOf definitions a.type)) := by
      rw [Names.argumentSpecs, FieldDecl.ofList_collect, List.map_map]
      exact congrArg Dict.ofList (List.map_congr_left fun a _ =>
        congrArg (Prod.mk a.name) (typeSpec_use hw a.type.use))
    exact congrArg₂ FieldSpec.callable harguments htype

/-- The table of a type is that of its fields. -/
theorem fieldTable_decls (fields : List FieldDef) :
    (Names.ofDeclarations (declarationsOf definitions)).fieldTable
        (FieldDecl.collect (fields.map FieldDef.decl)) = tableOf definitions fields := by
  rw [Names.fieldTable, FieldDecl.ofList_collect, List.map_map, tableOf]
  exact congrArg Dict.ofList (List.map_congr_left fun f _ =>
    congrArg (Prod.mk f.name) (fieldSpec_decl hw f))

end Meaning

/-! ### Root types -/

theorem get?_const {α : Type} (names : List String) (value : α) (key : String) :
    Dict.get? (names.map fun name => (name, value)) key
      = if key ∈ names then some value else none := by
  induction names with
  | nil => rfl
  | cons name names ih =>
    rw [List.map_cons, Dict.get?_cons, ih]
    by_cases h : key = name
    · rw [if_pos h, if_pos (h ▸ List.mem_cons_self)]
    · simp only [h, List.mem_cons, false_or, if_false]

/-- Roots are added to types as if they had been there before. -/
theorem withRoots_ofList (types : List (String × FieldTable)) :
    Schema.withRoots (Dict.ofList types)
      = Dict.ofList (Schema.rootTypes.map (fun root => (root, [])) ++ types) := by
  refine Dict.ext_of_get? (Schema.ascending_addRoots _ (Dict.ascending_ofList _))
    (Dict.ascending_ofList _) fun key => ?_
  have hroots : (Dict.keys (Schema.rootTypes.map fun root => (root, ([] : FieldTable)))).Nodup := by
    decide
  rw [Schema.get?_withRoots, Dict.get?_ofList_append, Dict.get?_ofList_of_nodup hroots,
    get?_const]

/-! ### The order of the definitions -/

section Order

variable (hdistinct : (definitions.map Definition.name).Nodup)

include hdistinct

/-- Among definitions of distinct names each is that of its name. -/
theorem definitionOf?_eq_some_iff :
    definitionOf? definitions name = some d ↔ d ∈ definitions ∧ d.name = name := by
  refine ⟨mem_of_definitionOf?, ?_⟩
  rintro ⟨hd, rfl⟩
  induction definitions with
  | nil => cases hd
  | cons other definitions ih =>
    obtain ⟨hnew, hdistinct⟩ := List.nodup_cons.1 hdistinct
    rw [definitionOf?_cons]
    rcases List.mem_cons.1 hd with rfl | hd
    · exact if_pos rfl
    · rw [if_neg, ih hdistinct hd]
      exact fun heq => hnew (heq ▸ List.mem_map_of_mem hd)

variable {others : List Definition} (hperm : definitions.Perm others)

include hperm

theorem definitionOf?_perm : definitionOf? definitions = definitionOf? others := by
  have hothers : (others.map Definition.name).Nodup := (hperm.map _).nodup_iff.1 hdistinct
  funext name
  refine Option.ext fun d => ?_
  rw [definitionOf?_eq_some_iff hdistinct, definitionOf?_eq_some_iff hothers, hperm.mem_iff]

theorem definesObject_perm : definesObject definitions = definesObject others := by
  funext name
  rw [definesObject, definesObject, definitionOf?_perm hdistinct hperm]

theorem leadsTo_perm : leadsTo definitions = leadsTo others := by
  funext name isList
  rw [leadsTo, leadsTo, definitionOf?_perm hdistinct hperm, definesObject_perm hdistinct hperm]

theorem tableOf_perm : tableOf definitions = tableOf others := by
  have href : refOf definitions = refOf others := by
    funext type
    rw [refOf, refOf, leadsTo_perm hdistinct hperm]
  funext fields
  unfold tableOf specOf
  rw [href]

/-- The same table is made of the definitions of a kind in any order. -/
theorem ofList_kind_perm {α γ : Type} {kind? : Definition → Option γ} {nameOf : γ → String}
    (hname : ∀ d x, kind? d = some x → nameOf x = d.name) (value : γ → α) :
    Dict.ofList ((definitions.filterMap kind?).map fun x => (nameOf x, value x))
      = Dict.ofList ((others.filterMap kind?).map fun x => (nameOf x, value x)) := by
  have hothers : (others.map Definition.name).Nodup := (hperm.map _).nodup_iff.1 hdistinct
  refine Dict.ext_of_get? (Dict.ascending_ofList _) (Dict.ascending_ofList _) fun key => ?_
  rw [get?_ofList_kind hname value hdistinct, get?_ofList_kind hname value hothers,
    definitionOf?_perm hdistinct hperm]

theorem aliasOf?_perm : aliasOf? definitions = aliasOf? others := by
  funext d
  unfold aliasOf?
  rw [definesObject_perm hdistinct hperm]

/-- **The order of the definitions does not matter.** -/
theorem schemaOf_perm : schemaOf definitions = schemaOf others := by
  have htypes := ofList_kind_perm hdistinct hperm name_of_object?
    fun x => tableOf definitions x.2
  have haliases := ofList_kind_perm hdistinct hperm (name_of_aliasOf? definitions) Prod.snd
  have hscalars := ofList_kind_perm hdistinct hperm name_of_scalar? fun _ => ()
  rw [List.map_id', List.map_id', aliasOf?_perm hdistinct hperm] at haliases
  rw [tableOf_perm hdistinct hperm] at htypes
  rw [schemaOf, schemaOf, Schema.mk.injEq, tableOf_perm hdistinct hperm,
    aliasOf?_perm hdistinct hperm]
  refine ⟨?_, haliases, hscalars⟩
  -- the roots stand before the defined types in either order
  refine Dict.ext_of_get? (Dict.ascending_ofList _) (Dict.ascending_ofList _) fun key => ?_
  rw [Dict.get?_ofList_append, Dict.get?_ofList_append]
  exact congrArg (fun types => (Dict.get? types key).or _) htypes

end Order

/-! ### Comments -/

/-- Nothing is taken for a comment or a description. -/
theorem strip_text {tokens : List Token} {cs : List Char} (h : Renders tokens cs) :
    Schema.strip cs = cs := by
  have hspelled := spelled_plain_iff.2 h
  have hquoted : ∀ content, .quoted content ∈ plain tokens → '#' ∉ content := fun content hmem =>
    absurd hmem (quoted_not_mem_plain content tokens)
  exact strip_eq_self (hspelled.hash_not_mem hquoted) hspelled.no_tripleQuote

/-! ### The whole text -/

section Text

variable (hw : WellFormed definitions)

include hw

theorem types_eq :
    Schema.withRoots (Dict.ofList ((declarationsOf definitions).types.map fun type =>
        (type.1, (Names.ofDeclarations (declarationsOf definitions)).fieldTable type.2)))
      = (schemaOf definitions).types := by
  have hentries : (definitions.filterMap Definition.declared?).map (fun type =>
        (type.1, (Names.ofDeclarations (declarationsOf definitions)).fieldTable type.2))
      = (definitions.filterMap Definition.object?).map fun type =>
        (type.1, tableOf definitions type.2) := by
    rw [List.map_filterMap, List.map_filterMap]
    refine List.filterMap_congr fun d _ => ?_
    cases d with
    | object kind name interfaces fields =>
      exact congrArg (fun table => some (name, table)) (fieldTable_decls hw fields)
    | _ => rfl
  rw [withRoots_ofList]
  exact congrArg (fun entries => Dict.ofList (_ ++ entries)) hentries

theorem ofDeclarations_eq :
    Schema.ofDeclarations (declarationsOf definitions) = schemaOf definitions := by
  have hscalars : (Names.ofDeclarations (declarationsOf definitions)).scalars
      = (schemaOf definitions).scalars := rfl
  exact (Schema.mk.injEq ..).mpr ⟨types_eq hw, aliases_eq hw.distinct hw.not_chained, hscalars⟩

/-- **What is written is read back.**

Take any well-formed definitions, in any order, and any text that shows them: with blanks between
its tokens as one likes and with any number of commas between fields and between arguments.  The
schema of the text is the one that is meant.  It has the types that are defined, beside empty ones
for the roots that are not, what each enum and each union stands for, and the declared scalars; and
every field and every argument leads where its type should. -/
theorem ofText_tokens {text : String} (h : Renders (tokensOf definitions) text.toList) :
    Schema.ofText text = schemaOf definitions := by
  have hdeclared : Declarations.ofChars text.toList = declarationsOf definitions := by
    rw [Declarations.ofChars, scan_objects hw.allowed h, scan_enums hw.allowed h,
      scan_unions hw.allowed h, scan_scalars hw.allowed h]
    rfl
  rw [Schema.ofText, Schema.ofChars, strip_text h, hdeclared, ofDeclarations_eq hw]

end Text

/-- A type with every kind of field, two unions, and an enum in either notation. -/
def catalog : List Definition :=
  [.object .type "Query" none
    [⟨"search", some [⟨"term", .named "String" true, 1⟩, ⟨"first", .named "Int" false, 0⟩],
      .list (.named "Hit" true) true, 0⟩],
   .object .interface "Node" none [⟨"id", none, .named "ID" true, 0⟩],
   .object .type "Product" (some ("Node", [.sign '&', .word "Dated"]))
    [⟨"id", none, .named "ID" true, 1⟩, ⟨"type", none, .named "Kind" false, 1⟩,
      ⟨"added", none, .named "Date" false, 0⟩],
   .enum "Kind" true [.word "BOOK", .word "MAP"],
   .enum "Order" false [.word "UP", .sign '|', .word "DOWN"],
   .union "Hit" false true "Product" [.sign '|', .word "Kind"],
   .union "Label" true false "Kind" [],
   .scalar "Date"]

/-- The catalog as it may be written. -/
def catalogText : String :=
  "type Query \x7b search(term: String!, first :Int): [ Hit! ]! \x7d
   interface Node\x7bid:ID!\x7d
   type Product implements Node & Dated \x7b
     id: ID!, type: Kind,
     added: Date
   \x7d
   enum Kind \x7b BOOK MAP \x7d enum Order = UP | DOWN
   union Hit =
     | Product
     | Kind
   union Label: Kind
   scalar Date"

theorem wellFormed_catalog : WellFormed catalog where
  allowed := by
    simp [catalog, Definition.Allowed, FieldDef.Allowed, Loose, keywords, TypeExpr.name]
  distinct := by decide
  ours := by decide
  firsts := by
    intro name first hunion other hother
    simp only [catalog, List.filterMap_cons, Definition.union?, List.filterMap_nil, List.mem_cons,
      Prod.mk.injEq, List.not_mem_nil, or_false] at hunion hother
    rcases hunion with ⟨-, rfl⟩ | ⟨-, rfl⟩ <;> simp at hother

theorem ofText_tokens_catalog :
    WellFormed catalog ∧ Renders (tokensOf catalog) catalogText.toList ∧
      Schema.ofText catalogText = schemaOf catalog := by
  have hshown : Renders (tokensOf catalog) catalogText.toList := by
    rw [catalogText, String.toList_ofList]
    decide +kernel
  exact ⟨wellFormed_catalog, hshown, ofText_tokens wellFormed_catalog hshown⟩

example : (schemaOf catalog).field? "Query" "search"
    = some (.callable [("first", .scalar "Int"), ("term", .scalar "String")]
      (.list "Product")) := by
  decide +kernel

end SchemaSyntax

end GraphWalk
