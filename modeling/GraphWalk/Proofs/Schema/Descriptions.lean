import GraphWalk.Proofs.Schema.Losses

/-!
# Descriptions

A description before a field is passed over by the scanner of fields, whatever stands in it.
But four other passes have gone over the text by then and know nothing of quotes: a hash is
taken for a comment, a closing brace for the end of the body, and words for the declaration
of an enum, a union or a scalar.  No type is ever read out of a description, as long as the
body is not cut short.

## Main results

* `mem_quotedTexts_iff` — without default values nothing else is quoted.
* `ofText_descriptions` — **descriptions are ignored exactly when there is no closing brace in
  them.**
-/

namespace GraphWalk

namespace SchemaSyntax

open Declaration

variable {definitions : List NotedDefinition} {text bare : String}

/-- Without a default value an argument is written without quotes. -/
theorem NotedArgument.quoted_not_mem {a : NotedArgument} (h : a.default = none)
    (content : List Char) :
    .quoted content ∉ a.lexemes := by
  simp [lexemes, h, defaultLexemes, quoted_not_mem_plain]

theorem NotedField.quoted_mem_iff {f : NotedField} {content : List Char}
    (h : ∀ arguments, f.arguments = some arguments → ∀ a ∈ arguments, a.default = none) :
    .quoted content ∈ f.lexemes ↔ f.description = some content := by
  have harguments : .quoted content ∉ argumentLexemes f.arguments := by
    cases heq : f.arguments with
    | none => exact nofun
    | some arguments =>
      intro hmem
      simp only [argumentLexemes, List.mem_cons, List.mem_append, List.mem_flatMap, reduceCtorEq,
        List.not_mem_nil, or_false, false_or] at hmem
      obtain ⟨a, ha, hmem⟩ := hmem
      exact NotedArgument.quoted_not_mem (h arguments heq a ha) content hmem
  have hdescription : .quoted content ∈ descriptionLexemes f.description
      ↔ f.description = some content := by
    cases f.description <;> simp [descriptionLexemes, eq_comm]
  simp [lexemes, harguments, hdescription, quoted_not_mem_plain]

/-- Without default values what is quoted in a definition is its descriptions. -/
theorem NotedDefinition.quoted_mem_iff {d : NotedDefinition} {content : List Char}
    (h : d.defaults = []) : .quoted content ∈ d.lexemes ↔ content ∈ d.descriptions := by
  have hnone : ∀ f ∈ d.fields, ∀ arguments, f.arguments = some arguments → ∀ a ∈ arguments,
      a.default = none := by
    intro f hf arguments harguments a ha
    refine Option.eq_none_iff_forall_not_mem.2 fun l hl => ?_
    have hmem := mem_defaults.2 ⟨f, hf, arguments, harguments, a, ha, hl⟩
    rw [h] at hmem
    cases hmem
  cases d with
  | other d plain =>
    simp [lexemes, descriptions, fields, quoted_not_mem_plain]
  | object kind name interfaces fields =>
    have hfields : .quoted content ∈ fields.flatMap NotedField.lexemes
        ↔ ∃ f ∈ fields, f.description = some content := by
      rw [List.mem_flatMap]
      exact exists_congr fun f => and_congr_right fun hf => NotedField.quoted_mem_iff (hnone f hf)
    simp [lexemes, descriptions, NotedDefinition.fields, hfields, quoted_not_mem_plain]

/-- **Without default values nothing is quoted but descriptions.** -/
theorem mem_quotedTexts_iff {content : List Char} (h : ∀ d ∈ definitions, d.defaults = []) :
    content ∈ quotedTexts (lexemesOf definitions) ↔ content ∈ descriptionsOf definitions := by
  rw [mem_quotedTexts, lexemesOf, descriptionsOf, List.mem_flatMap, List.mem_flatMap]
  exact exists_congr fun d => and_congr_right fun hd => NotedDefinition.quoted_mem_iff (h d hd)

/-- Without default values a closing brace in a type is that of a description. -/
theorem NotedDefinition.closed_iff_descriptions {d : NotedDefinition} (h : d.defaults = []) :
    d.Closed ↔ ∀ content ∈ d.descriptions, '\x7d' ∉ content := by
  have hfield : ∀ f ∈ d.fields, (Lacks '\x7d' f.lexemes ↔
      ∀ content, f.description = some content → '\x7d' ∉ content) := by
    intro f hf
    rw [NotedField.lacks_iff]
    refine and_iff_left fun arguments harguments a ha => NotedArgument.lacks_iff.2 fun l hl => ?_
    have hmem := mem_defaults.2 ⟨f, hf, arguments, harguments, a, ha, hl⟩
    rw [h] at hmem
    cases hmem
  simp only [Closed, descriptions, List.mem_filterMap]
  constructor
  · rintro hclosed content ⟨f, hf, heq⟩
    exact (hfield f hf).1 (hclosed f hf) content heq
  · exact fun hall f hf => (hfield f hf).2 fun content heq => hall content ⟨f, hf, heq⟩

/-- **Descriptions are ignored exactly when there is no closing brace in them.**

Take any definitions with descriptions before their fields, and any text that shows them.  Let no
hash stand in a description, and no enum, union or scalar be declared in one.  If there is no
closing brace in a description either, the text is read as the one without descriptions.  If there
is one, and names are distinct, it never is: the type loses the field that is described. -/
theorem ofText_descriptions (hw : Written definitions text bare)
    (hdefaults : ∀ d ∈ definitions, d.defaults = [])
    (hhash : ∀ content ∈ descriptionsOf definitions, '#' ∉ content)
    (hsilent : ∀ content ∈ descriptionsOf definitions, Silent content) :
    ((∀ content ∈ descriptionsOf definitions, '\x7d' ∉ content) →
      Schema.ofText text = Schema.ofText bare) ∧
    ((definitions.map fun d => d.bare.name).Nodup →
      (∀ d ∈ definitions, (d.fields.map NotedField.name).Nodup) →
      (∀ content ∈ descriptionsOf definitions, Bodiless content) →
      (∃ content ∈ descriptionsOf definitions, '\x7d' ∈ content) →
      Schema.ofText text ≠ Schema.ofText bare) := by
  have hquoted : ∀ {P : List Char → Prop}, (∀ content ∈ descriptionsOf definitions, P content) →
      ∀ content ∈ quotedTexts (lexemesOf definitions), P content :=
    fun h content hmem => h content ((mem_quotedTexts_iff hdefaults).1 hmem)
  have hinert : Inert definitions := ⟨hquoted hhash, hquoted hsilent⟩
  constructor
  · intro hnone
    refine hw.ofText_eq hinert fun d hd => ?_
    refine (NotedDefinition.closed_iff_descriptions (hdefaults d hd)).2 fun content hmem => ?_
    exact hnone content (List.mem_flatMap.2 ⟨d, hd, hmem⟩)
  · rintro hdistinct hfields hbodiless ⟨content, hmem, hbrace⟩ heq
    obtain ⟨d, hd, hcontent⟩ := List.mem_flatMap.1 hmem
    have hclosed := hw.closed_of_ofText_eq hinert (hquoted hbodiless) hdistinct hfields heq d hd
    have hnone := (NotedDefinition.closed_iff_descriptions (hdefaults d hd)).1 hclosed
    exact hnone content hcontent hbrace

/-- A type with descriptions. -/
def described : List NotedDefinition :=
  [.object .type "Query" none
    [⟨some "finds any type of item (union, enum)".toList, "find", none, .named "Int" false, 0⟩,
      ⟨some [], "type", none, .named "Int" true, 1⟩,
      ⟨some "how many there are".toList, "count", none, .named "Int" false, 0⟩]]

/-- The type as it may be written. -/
def describedText : String :=
  "type Query \x7b
     \"finds any type of item (union, enum)\"
     find: Int
     \"\" type: Int!,
     \"how many there are\"
     count: Int
   \x7d"

/-- A type with a closing brace in a description. -/
def braceDescribed : List NotedDefinition :=
  [.object .type "Query" none
    [⟨some "see \x7d below".toList, "find", none, .named "Int" false, 0⟩,
      ⟨none, "count", none, .named "Int" false, 0⟩]]

theorem ofText_descriptions_find :
    (Written described describedText "type Query \x7b find: Int type: Int!, count: Int \x7d" ∧
      Schema.ofText describedText
        = Schema.ofText "type Query \x7b find: Int type: Int!, count: Int \x7d") ∧
    (Written braceDescribed "type Query \x7b \"see \x7d below\" find: Int count: Int \x7d"
        "type Query \x7b find: Int count: Int \x7d" ∧
      Schema.ofText "type Query \x7b \"see \x7d below\" find: Int count: Int \x7d"
        ≠ Schema.ofText "type Query \x7b find: Int count: Int \x7d") := by
  have hdescribed : Written described describedText
      "type Query \x7b find: Int type: Int!, count: Int \x7d" := by
    refine ⟨?_, by decide +kernel, by decide +kernel⟩
    simp [described, NotedDefinition.Allowed, NotedDefinition.bare, NotedDefinition.fields,
      NotedField.bare, Definition.Allowed, FieldDef.Allowed, NotedField.Allowed, TypeExpr.name,
      keywords]
  have hbrace : Written braceDescribed
      "type Query \x7b \"see \x7d below\" find: Int count: Int \x7d"
      "type Query \x7b find: Int count: Int \x7d" := by
    refine ⟨?_, by decide +kernel, by decide +kernel⟩
    simp [braceDescribed, NotedDefinition.Allowed, NotedDefinition.bare, NotedDefinition.fields,
      NotedField.bare, Definition.Allowed, FieldDef.Allowed, NotedField.Allowed, TypeExpr.name,
      keywords]
  refine ⟨⟨hdescribed, ?_⟩, hbrace, ?_⟩
  · exact (ofText_descriptions hdescribed (by decide +kernel) (by decide +kernel)
      (by decide +kernel)).1 (by decide +kernel)
  · exact (ofText_descriptions hbrace (by decide +kernel) (by decide +kernel)
      (by decide +kernel)).2 (by decide +kernel) (by decide +kernel) (by decide +kernel)
      (by decide +kernel)

/-- **Descriptions are not always ignored.**  A closing brace ends the body of the type, a hash
takes the closing quote away with the rest of its line, and the word behind "scalar" is declared as
one. -/
theorem description_read :
    Schema.ofText "type Query \x7b \"see \x7d below\" find: Int count: Int \x7d"
        ≠ Schema.ofText "type Query \x7b find: Int count: Int \x7d" ∧
      Schema.ofText "type Query \x7b \"item #1\"\n find: Int\n count: Int \x7d"
        ≠ Schema.ofText "type Query \x7b find: Int\n count: Int \x7d" ∧
      Schema.ofText "type Query \x7b \"a scalar value\" find: Int count: Int \x7d"
        ≠ Schema.ofText "type Query \x7b find: Int count: Int \x7d" := by
  refine ⟨by decide +kernel, by decide +kernel, fun heq => ?_⟩
  exact absurd (congrArg Schema.scalars heq) (by decide +kernel)

end SchemaSyntax

end GraphWalk
