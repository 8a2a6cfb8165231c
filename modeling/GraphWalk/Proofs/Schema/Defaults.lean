import GraphWalk.Proofs.Schema.Losses

/-!
# Default values

The scanner of fields skips a default value whatever it is: lists, quoted texts and objects,
nested as one likes.  But the body of the type is cut out before it comes to that, and its end
is the first closing brace; and the recognisers of enums, unions and scalars look into quoted
texts.  So a default value makes no difference unless there is an object in it, or a
declaration in one of its quoted texts, and an object always does.

## Main definitions

* `Literal.hasObject` — there is an object in a value.

## Main results

* `Literal.lacks_iff` — a closing brace in a value is that of an object.
* `ofText_defaults` — **default values are ignored exactly when there is no object in them.**
-/

namespace GraphWalk

namespace SchemaSyntax

open Declaration

variable {definitions : List NotedDefinition} {text bare : String}

mutual

/-- There is an object in a value. -/
def Literal.hasObject : Literal → Bool
  | .numeral _ => false
  | .name _ => false
  | .text _ => false
  | .list items => items.hasObject
  | .object _ => true

/-- There is an object in a value of a list. -/
def Items.hasObject : Items → Bool
  | .nil => false
  | .cons item _ rest => item.hasObject || rest.hasObject

end

mutual

/-- A closing brace in a value is that of an object, as long as there is none in quoted texts. -/
theorem Literal.lacks_iff (l : Literal)
    (h : ∀ content, .quoted content ∈ l.lexemes → '\x7d' ∉ content) :
    Lacks '\x7d' l.lexemes ↔ l.hasObject = false := by
  cases l with
  | numeral digits => simp [Literal.lexemes, Literal.hasObject, Lacks, Lexeme.Lacks]
  | name name => simp [Literal.lexemes, Literal.hasObject, Lacks, Lexeme.Lacks]
  | text content =>
    have hcontent := h content (List.mem_singleton_self _)
    simp [Literal.lexemes, Literal.hasObject, Lacks, Lexeme.Lacks, hcontent]
  | list items =>
    have hitems := items.lacks_iff fun content hmem => h content (by simp [Literal.lexemes, hmem])
    rw [Literal.hasObject, ← hitems]
    simp [Literal.lexemes, lacks_cons, lacks_append, lacks_nil, Lexeme.Lacks]
  | object members =>
    simp [Literal.lexemes, Literal.hasObject, lacks_cons, lacks_append, Lexeme.Lacks]

theorem Items.lacks_iff (items : Items)
    (h : ∀ content, .quoted content ∈ items.lexemes → '\x7d' ∉ content) :
    Lacks '\x7d' items.lexemes ↔ items.hasObject = false := by
  cases items with
  | nil => simp [Items.lexemes, Items.hasObject, lacks_nil]
  | cons item n rest =>
    have hitem := item.lacks_iff fun content hmem => h content (by simp [Items.lexemes, hmem])
    have hrest := rest.lacks_iff fun content hmem => h content (by simp [Items.lexemes, hmem])
    rw [Items.hasObject, Bool.or_eq_false_iff, ← hitem, ← hrest]
    simp [Items.lexemes, lacks_append, lacks_commas]

end

theorem NotedDefinition.lexemes_subset {d : NotedDefinition} {l : Literal} (h : l ∈ d.defaults) :
    l.lexemes ⊆ d.lexemes := by
  obtain ⟨f, hf, arguments, harguments, a, ha, hl⟩ := mem_defaults.1 h
  cases d with
  | other d plain => cases hf
  | object kind name interfaces fields =>
    intro ℓ hℓ
    have hargument : ℓ ∈ a.lexemes := by
      simp [NotedArgument.lexemes, hl, defaultLexemes, hℓ]
    have hall : ℓ ∈ arguments.flatMap NotedArgument.lexemes := List.mem_flatMap.2 ⟨a, ha, hargument⟩
    have hfield : ℓ ∈ f.lexemes := by
      simp [NotedField.lexemes, harguments, argumentLexemes, hall]
    have hfields : ℓ ∈ fields.flatMap NotedField.lexemes := List.mem_flatMap.2 ⟨f, hf, hfield⟩
    simp [lexemes, hfields]

/-- Without descriptions a closing brace in a type is that of an object. -/
theorem NotedDefinition.closed_iff_defaults {d : NotedDefinition}
    (hdescriptions : ∀ f ∈ d.fields, f.description = none)
    (hquoted : ∀ content, .quoted content ∈ d.lexemes → '\x7d' ∉ content) :
    d.Closed ↔ ∀ l ∈ d.defaults, l.hasObject = false := by
  have hlacks : ∀ l ∈ d.defaults, (Lacks '\x7d' l.lexemes ↔ l.hasObject = false) := fun l hl =>
    l.lacks_iff fun content hmem => hquoted content (lexemes_subset hl hmem)
  constructor
  · intro hclosed l hl
    obtain ⟨f, hf, arguments, harguments, a, ha, hdefault⟩ := mem_defaults.1 hl
    have hargument := (NotedField.lacks_iff.1 (hclosed f hf)).2 arguments harguments a ha
    exact (hlacks l hl).1 (NotedArgument.lacks_iff.1 hargument l hdefault)
  · intro hall f hf
    refine NotedField.lacks_iff.2 ⟨fun content heq => ?_, fun arguments harguments a ha => ?_⟩
    · rw [hdescriptions f hf] at heq
      cases heq
    · refine NotedArgument.lacks_iff.2 fun l hl => ?_
      have hmem := mem_defaults.2 ⟨f, hf, arguments, harguments, a, ha, hl⟩
      exact (hlacks l hmem).2 (hall l hmem)

/-- **Default values are ignored exactly when there is no object in them.**

Take any definitions, with any default values behind their arguments: numbers, names, quoted texts,
and lists and objects of them, nested as one likes; and any text that shows them.  Let no hash and
no closing brace stand in a quoted text, and no enum, union or scalar be declared in one.  If there
is no object in a default value, the text is read as the one without default values.  If there is
one, and names are distinct, it never is: the type loses the field that has it. -/
theorem ofText_defaults (hw : Written definitions text bare)
    (hdescriptions : ∀ d ∈ definitions, ∀ f ∈ d.fields, f.description = none)
    (hquoted : ∀ content ∈ quotedTexts (lexemesOf definitions), '#' ∉ content ∧ '\x7d' ∉ content)
    (hsilent : ∀ content ∈ quotedTexts (lexemesOf definitions), Silent content) :
    ((∀ d ∈ definitions, ∀ l ∈ d.defaults, l.hasObject = false) →
      Schema.ofText text = Schema.ofText bare) ∧
    ((definitions.map fun d => d.bare.name).Nodup →
      (∀ d ∈ definitions, (d.fields.map NotedField.name).Nodup) →
      (∀ content ∈ quotedTexts (lexemesOf definitions), Bodiless content) →
      (∃ d ∈ definitions, ∃ l ∈ d.defaults, l.hasObject = true) →
      Schema.ofText text ≠ Schema.ofText bare) := by
  have hinert : Inert definitions := ⟨fun content hmem => (hquoted content hmem).1, hsilent⟩
  have hclosed : ∀ d ∈ definitions, (d.Closed ↔ ∀ l ∈ d.defaults, l.hasObject = false) :=
    fun d hd => NotedDefinition.closed_iff_defaults (hdescriptions d hd) fun content hmem =>
      (hquoted content (mem_quotedTexts.2 (List.mem_flatMap.2 ⟨d, hd, hmem⟩))).2
  constructor
  · intro hnone
    exact hw.ofText_eq hinert fun d hd => (hclosed d hd).2 (hnone d hd)
  · rintro hdistinct hfields hbodiless ⟨d, hd, l, hl, hobject⟩ heq
    have hwhole := hw.closed_of_ofText_eq hinert hbodiless hdistinct hfields heq d hd
    have hnone := (hclosed d hd).1 hwhole l hl
    rw [hobject] at hnone
    cases hnone

/-- A type with default values of every kind but objects. -/
def defaulted : List NotedDefinition :=
  [.object .type "Query" none
    [⟨none, "find", some
      [⟨"size", .named "Int" false, some (.numeral ['-', '1']), 1⟩,
        ⟨"kind", .named "Kind" true, some (.name "ANY"), 0⟩,
        ⟨"words", .list (.named "String" false) false, some (.list
          (.cons (.text "one, two (three)".toList) 1 (.cons (.text []) 0 .nil))), 0⟩],
      .named "Int" false, 0⟩,
    ⟨none, "count", none, .named "Int" true, 0⟩]]

/-- The type as it may be written. -/
def defaultedText : String :=
  "type Query \x7b
     find(size: Int = -1, kind: Kind! = ANY words: [String] = [\"one, two (three)\", \"\"]): Int
     count: Int!
   \x7d"

/-- A type with an object as default value. -/
def objectDefaulted : List NotedDefinition :=
  [.object .type "Query" none
    [⟨none, "find", some [⟨"filter", .named "Filter" false, some (.list (.cons (.object
        (.cons "size" (.numeral ['1']) 0 .nil)) 0 .nil)), 0⟩], .named "Int" false, 0⟩,
    ⟨none, "count", none, .named "Int" false, 0⟩]]

theorem ofText_defaults_find :
    (Written defaulted defaultedText
        "type Query \x7b find(size: Int, kind: Kind! words: [String]): Int count: Int! \x7d" ∧
      Schema.ofText defaultedText = Schema.ofText
        "type Query \x7b find(size: Int, kind: Kind! words: [String]): Int count: Int! \x7d") ∧
    (Written objectDefaulted
        "type Query \x7b find(filter: Filter = [\x7b size: 1 \x7d]): Int count: Int \x7d"
        "type Query \x7b find(filter: Filter): Int count: Int \x7d" ∧
      Schema.ofText
          "type Query \x7b find(filter: Filter = [\x7b size: 1 \x7d]): Int count: Int \x7d"
        ≠ Schema.ofText "type Query \x7b find(filter: Filter): Int count: Int \x7d") := by
  have hdefaulted : Written defaulted defaultedText
      "type Query \x7b find(size: Int, kind: Kind! words: [String]): Int count: Int! \x7d" := by
    refine ⟨?_, by decide +kernel, by decide +kernel⟩
    simp [defaulted, NotedDefinition.Allowed, NotedDefinition.bare, NotedDefinition.fields,
      NotedField.bare, NotedArgument.bare, Definition.Allowed, FieldDef.Allowed, NotedField.Allowed,
      NotedArgument.Allowed, Literal.Allowed, Items.Allowed, TypeExpr.name, keywords]
  have hobject : Written objectDefaulted
      "type Query \x7b find(filter: Filter = [\x7b size: 1 \x7d]): Int count: Int \x7d"
      "type Query \x7b find(filter: Filter): Int count: Int \x7d" := by
    refine ⟨?_, by decide +kernel, by decide +kernel⟩
    simp [objectDefaulted, NotedDefinition.Allowed, NotedDefinition.bare, NotedDefinition.fields,
      NotedField.bare, NotedArgument.bare, Definition.Allowed, FieldDef.Allowed, NotedField.Allowed,
      NotedArgument.Allowed, Literal.Allowed, Items.Allowed, Members.Allowed, TypeExpr.name,
      keywords]
  refine ⟨⟨hdefaulted, ?_⟩, hobject, ?_⟩
  · refine (ofText_defaults hdefaulted ?_ (by decide +kernel) (by decide +kernel)).1 ?_
    · simp [defaulted, NotedDefinition.fields]
    · decide
  · refine (ofText_defaults hobject ?_ (by decide +kernel) (by decide +kernel)).2 (by decide)
      ?_ (by decide +kernel) ?_
    · simp [objectDefaulted, NotedDefinition.fields]
    · simp [objectDefaulted, NotedDefinition.fields]
    · decide

/-- **Default values are not always ignored.**  With an object as default value the field that has
it and those behind it are lost, and a quoted text is searched for declarations. -/
theorem default_read :
    Schema.ofText "type Query \x7b find(filter: Filter = \x7b size: 1 \x7d): Int count: Int \x7d"
        ≠ Schema.ofText "type Query \x7b find(filter: Filter): Int count: Int \x7d" ∧
      Schema.ofText "type Query \x7b find(text: String = \"a scalar value\"): Int count: Int \x7d"
        ≠ Schema.ofText "type Query \x7b find(text: String): Int count: Int \x7d" := by
  refine ⟨by decide +kernel, fun heq => ?_⟩
  -- the word behind "scalar" is declared as one
  exact absurd (congrArg Schema.scalars heq) (by decide +kernel)

end SchemaSyntax

end GraphWalk
