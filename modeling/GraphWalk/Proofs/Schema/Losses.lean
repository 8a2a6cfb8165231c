import GraphWalk.Proofs.Schema.Cutting

/-!
# What notes cost

A text with notes means the same as the text without them, unless a note is mistaken for
something else.  The one mistake that loses fields is a closing brace in a note: where one
stands, and only there, the two texts are read differently.

## Main definitions

* `Written` — a text with notes, and one without them.

## Main results

* `Written.ofText_eq` — **without closing braces notes make no difference.**
* `Written.closed_of_ofText_eq` — **with one they do.**
-/

namespace GraphWalk

namespace SchemaSyntax

open Declaration

variable {definitions : List NotedDefinition} {text bare : String}

/-- A text with notes, and one that shows the same definitions without them. -/
structure Written (definitions : List NotedDefinition) (text bare : String) : Prop where
  allowed : ∀ d ∈ definitions, d.Allowed
  noted : Spelled [] (lexemesOf definitions) text.toList
  bare : Renders (tokensOf (definitions.map NotedDefinition.bare)) bare.toList

/-- Nothing in a quoted text is mistaken for a comment, or for an enum, a union or a scalar. -/
structure Inert (definitions : List NotedDefinition) : Prop where
  hashless : ∀ content ∈ quotedTexts (lexemesOf definitions), '#' ∉ content
  silent : ∀ content ∈ quotedTexts (lexemesOf definitions), Silent content

/-- A text without notes means its definitions. -/
theorem ofText_plain {definitions : List Definition} (hallowed : ∀ d ∈ definitions, d.Allowed)
    (h : Renders (tokensOf definitions) text.toList) :
    Schema.ofText text = Schema.ofDeclarations (declarationsOf definitions) := by
  have hsilent : ∀ content, .quoted content ∈ lexemesOf (definitions.map Definition.noted) →
      Silent content := fun content hmem =>
    absurd (lexemesOf_noted definitions ▸ hmem) (quoted_not_mem_plain content _)
  have hkept : ((definitions.map Definition.noted).map fun d => d.kept.bare) = definitions := by
    rw [List.map_map]
    refine List.map_id'' (fun d => ?_) definitions
    rw [Function.comp_apply, d.closed_noted.kept_eq, d.bare_noted]
  rw [Schema.ofText, Schema.ofChars, strip_text h, ofChars_noted (allowed_noted hallowed) hsilent
    (List.forall_mem_map.2 fun d _ => .inl d.closed_noted) (spelled_noted h), hkept]

section

variable (hw : Written definitions text bare) (hinert : Inert definitions)

include hw

theorem Written.ofText_bare : Schema.ofText bare
    = Schema.ofDeclarations (declarationsOf (definitions.map NotedDefinition.bare)) :=
  ofText_plain (List.forall_mem_map.2 fun d hd => (hw.allowed d hd).1) hw.bare

include hinert

/-- A text with notes means what is left of its definitions. -/
theorem Written.ofText_noted
    (hcut : ∀ d ∈ definitions,
      d.Closed ∨ ∀ content, .quoted content ∈ d.lexemes → Bodiless content) :
    Schema.ofText text
      = Schema.ofDeclarations (declarationsOf (definitions.map fun d => d.kept.bare)) := by
  have hhash := hw.noted.hash_not_mem fun content hmem =>
    hinert.hashless content (mem_quotedTexts.2 hmem)
  have hdeclared := ofChars_noted hw.allowed
    (fun content hmem => hinert.silent content (mem_quotedTexts.2 hmem)) hcut hw.noted
  rw [Schema.ofText, Schema.ofChars, strip_eq_self hhash hw.noted.no_tripleQuote, hdeclared]

/-- **Without closing braces notes make no difference.** -/
theorem Written.ofText_eq (hclosed : ∀ d ∈ definitions, d.Closed) :
    Schema.ofText text = Schema.ofText bare := by
  have hkept : (definitions.map fun d => d.kept.bare) = definitions.map NotedDefinition.bare :=
    List.map_congr_left fun d hd => by rw [(hclosed d hd).kept_eq]
  rw [hw.ofText_noted hinert fun d hd => .inl (hclosed d hd), hw.ofText_bare, hkept]

end

/-! ### A field that is lost -/

section

variable {definitions : List Definition} (hdistinct : (definitions.map Definition.name).Nodup)
variable {kind : ObjectKind} {name : String} {interfaces : Option (String × List Token)}
variable {fields : List FieldDef}

include hdistinct

/-- The table of a type in the schema of some definitions. -/
theorem fields?_ofDeclarations (hmem : .object kind name interfaces fields ∈ definitions) :
    (Schema.ofDeclarations (declarationsOf definitions)).fields? name
      = some ((Names.ofDeclarations (declarationsOf definitions)).fieldTable
          (FieldDecl.collect (fields.map FieldDef.decl))) := by
  have hdefinition := (definitionOf?_eq_some_iff hdistinct).2 ⟨hmem, rfl⟩
  have htable := get?_ofList_kind name_of_declared?
    (fun x => (Names.ofDeclarations (declarationsOf definitions)).fieldTable x.2) hdistinct name
  have hget := Schema.get?_addRoots Schema.rootTypes (Dict.ofList ((definitions.filterMap
    Definition.declared?).map fun x =>
      (x.1, (Names.ofDeclarations (declarationsOf definitions)).fieldTable x.2))) name
  rw [htable, show definitionOf? definitions name = _ from hdefinition] at hget
  exact hget

/-- A type of the schema has the fields that are written in it. -/
theorem isSome_field? (hmem : .object kind name interfaces fields ∈ definitions) (field : String) :
    ((Schema.ofDeclarations (declarationsOf definitions)).field? name field).isSome
      ↔ field ∈ fields.map FieldDef.name := by
  rw [Schema.field?, fields?_ofDeclarations hdistinct hmem, Option.bind_some, Names.fieldTable,
    FieldDecl.ofList_collect, Dict.get?_ofList, ← not_iff_not, Option.not_isSome_iff_eq_none,
    Dict.get?_eq_none_iff]
  simp [Dict.keys, FieldDef.decl, FieldDecl.name]

end

theorem NotedDefinition.name_kept (d : NotedDefinition) : d.kept.bare.name = d.bare.name := by
  cases d <;> rfl

/-- **With closing braces notes make a difference**: a field is lost. -/
theorem Written.closed_of_ofText_eq (hw : Written definitions text bare)
    (hinert : Inert definitions)
    (hbodiless : ∀ content ∈ quotedTexts (lexemesOf definitions), Bodiless content)
    (hdistinct : (definitions.map fun d => d.bare.name).Nodup)
    (hfields : ∀ d ∈ definitions, (d.fields.map NotedField.name).Nodup)
    (heq : Schema.ofText text = Schema.ofText bare) : ∀ d ∈ definitions, d.Closed := by
  have hcut : ∀ d ∈ definitions, ∀ content, .quoted content ∈ d.lexemes → Bodiless content :=
    fun d hd content hmem =>
      hbodiless content (mem_quotedTexts.2 (List.mem_flatMap.2 ⟨d, hd, hmem⟩))
  rw [hw.ofText_noted hinert fun d hd => .inr (hcut d hd), hw.ofText_bare] at heq
  intro d hd
  by_contra hclosed
  cases d with
  | other d plain => exact hclosed nofun
  | object kind name interfaces fields =>
    have hcutoff : ¬ ∀ f ∈ fields, f.Whole := hclosed
    obtain ⟨first, f, others, rfl, hkept, -⟩ := exists_first hcutoff
    have hbare : ((definitions.map NotedDefinition.bare).map Definition.name).Nodup := by
      simpa [Function.comp_def] using hdistinct
    have hleft : ((definitions.map fun d => d.kept.bare).map Definition.name).Nodup := by
      simpa [Function.comp_def, NotedDefinition.name_kept] using hdistinct
    have hthere := isSome_field? hbare (List.mem_map_of_mem hd) f.name
    have hlost := isSome_field? hleft (List.mem_map_of_mem hd) f.name
    rw [heq] at hlost
    have hagain := hlost.1 (hthere.2 (by simp [NotedField.bare]))
    -- but it is kept under no other field either
    have hnodup := hfields _ hd
    rw [NotedDefinition.fields, List.map_append, List.map_cons, List.nodup_middle,
      List.nodup_cons, List.mem_append, not_or] at hnodup
    rw [hkept, List.map_map] at hagain
    exact hnodup.1.1 hagain

end SchemaSyntax

end GraphWalk
