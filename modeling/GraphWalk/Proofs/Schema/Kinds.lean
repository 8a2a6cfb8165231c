import GraphWalk.Proofs.Schema.Scanning

/-!
# The four kinds of declarations

Types with fields, enums, unions and scalars are looked for with a recogniser each.  From
the keyword of a definition on, the recogniser of its kind reads it: its name, and the body
of a type or the first alternative of a union.  The others pass over it.

## Main definitions

* `NotedDefinition.Closed` — no closing brace stands in the notes of a type.

## Main results

* `objectTypes_beginsWith`, `enums_beginsWith`, `unions_beginsWith`, `scalars_beginsWith` —
  the keywords of the recognisers.
* `finds_object`, `finds_enum`, `finds_union`, `finds_scalar` — what each finds in one
  definition.
* `noted_objects`, `noted_enums`, `noted_unions`, `noted_scalars` — **what each finds in a
  whole text.**
* `scan_objects`, `scan_enums`, `scan_unions`, `scan_scalars` — the same for a text without
  notes.
-/

namespace GraphWalk

namespace SchemaSyntax

open Text Declaration

variable {lexemes : List Lexeme} {cs rest tail : List Char} {c : Char} {name : String}
variable {d : NotedDefinition}

/-! ### Their keywords -/

theorem objectTypes_beginsWith : BeginsWith objectTypes objectKeywords where
  areKinds := by decide
  named {cs found} h := by
    simp only [objectTypes, objectType?, Option.bind_eq_some_iff] at h
    obtain ⟨_, hnamed, _⟩ := h
    obtain ⟨keyword, hkeyword, hfound⟩ := List.exists_of_findSome?_eq_some hnamed
    exact ⟨keyword, hkeyword, Option.isSome_of_eq_some hfound⟩

theorem enums_beginsWith : BeginsWith enums ["enum"] where
  areKinds := by decide
  named {cs found} h := by
    obtain ⟨_, hnamed, -⟩ := Option.bind_eq_some_iff.1 h
    exact ⟨_, List.mem_singleton_self _, Option.isSome_of_eq_some hnamed⟩

theorem unions_beginsWith : BeginsWith unions ["union"] where
  areKinds := by decide
  named {cs found} h := by
    obtain ⟨_, hnamed, -⟩ := Option.bind_eq_some_iff.1 h
    exact ⟨_, List.mem_singleton_self _, Option.isSome_of_eq_some hnamed⟩

theorem scalars_beginsWith : BeginsWith scalars ["scalar"] where
  areKinds := by decide
  named h := ⟨_, List.mem_singleton_self _, Option.isSome_of_eq_some h⟩

/-! ### Their parts -/

/-- A sign that is allowed stands next. -/
theorem Spelled.afterOneOf? (h : Spelled tail (.sign c :: lexemes) cs) {allowed : List Char}
    (hc : c ∈ allowed) : ∃ rest, Declaration.afterOneOf? allowed (dropBlanks cs) = some rest ∧
      Spelled tail lexemes rest := by
  obtain ⟨rest, hnext, -, hrest⟩ := h.next_sign
  refine ⟨rest, ?_, hrest⟩
  rw [hnext, Declaration.afterOneOf?, if_pos (List.contains_iff_mem.2 hc)]

/-- A list of interfaces is passed over. -/
theorem afterHeader?_lexemes {interfaces : Option (String × List Token)}
    (h : Spelled tail (plain (Definition.interfaceTokens interfaces) ++ .sign '\x7b' :: lexemes)
      rest)
    (hothers : ∀ first others, interfaces = some (first, others) → Loose ['&', ','] others) :
    ∃ after, afterHeader? rest = some after ∧ Spelled tail lexemes after := by
  have hword : IsWord "implements" := isWord_of_mem_keywords (by decide)
  have hbrace : Text.isWord '\x7b' = false := (not_isWord_of_mem_signs (by decide)).1
  cases interfaces with
  | none =>
    obtain ⟨after, hopen, hafter⟩ := Spelled.afterOneOf? h (List.mem_singleton_self _)
    obtain ⟨_, hnext, -⟩ := Spelled.next_sign h
    refine ⟨after, ?_, hafter⟩
    rw [afterHeader?, hnext, afterKeyword?_of_not_isWord hword hbrace, ← hnext]
    exact hopen
  | some interfaces =>
    obtain ⟨first, others⟩ := interfaces
    obtain ⟨behind, hnext, -, hends, hbehind⟩ := Spelled.next_word h
    have hlacks : Lacks '\x7b' (plain (.word first :: others)) := by
      refine lacks_plain fun hmem => ?_
      have hbetween := hothers first others rfl _ (List.mem_of_ne_of_mem Token.noConfusion hmem)
      exact absurd hbetween (by decide)
    obtain ⟨inner, after, heq, hinner, -, hafter⟩ :=
      Spelled.cut_at hbehind.without_blanks (by decide) hlacks
    refine ⟨after, ?_, hafter⟩
    rw [afterHeader?, hnext, afterKeyword?_word hbehind hends]
    dsimp only
    rw [heq, (span_until hinner after).2]
    rfl

/-- No closing brace stands in the fields of a type, not in their notes either. -/
def NotedDefinition.Closed (d : NotedDefinition) : Prop := ∀ f ∈ d.fields, Lacks '\x7d' f.lexemes

theorem TypeExpr.lacks (type : TypeExpr) : Lacks '\x7d' (plain type.tokens) :=
  lacks_plain fun hmem => absurd (TypeExpr.sign_mem_tokens hmem) (by decide)

theorem lacks_commas (n : Nat) : Lacks '\x7d' (plain (commas n)) :=
  lacks_plain fun hmem => absurd (List.eq_of_mem_replicate hmem) (by decide)

theorem lacks_nil : Lacks c [] := nofun

/-- A closing brace in an argument stands in its default value. -/
theorem NotedArgument.lacks_iff {a : NotedArgument} :
    Lacks '\x7d' a.lexemes ↔ ∀ l, a.default = some l → Lacks '\x7d' l.lexemes := by
  have hrest : Lacks '\x7d' a.lexemes ↔ Lacks '\x7d' (defaultLexemes a.default) := by
    simp [lexemes, lacks_cons, lacks_append, Lexeme.Lacks, TypeExpr.lacks, lacks_commas]
  rw [hrest]
  cases a.default with
  | none => simp [defaultLexemes, lacks_nil]
  | some l => simp [defaultLexemes, lacks_cons, Lexeme.Lacks]

/-- A closing brace in a field stands in its description or in an argument. -/
theorem NotedField.lacks_iff {f : NotedField} :
    Lacks '\x7d' f.lexemes ↔ (∀ content, f.description = some content → '\x7d' ∉ content) ∧
      ∀ arguments, f.arguments = some arguments → ∀ a ∈ arguments, Lacks '\x7d' a.lexemes := by
  have hrest : Lacks '\x7d' f.lexemes ↔ Lacks '\x7d' (descriptionLexemes f.description) ∧
      Lacks '\x7d' (argumentLexemes f.arguments) := by
    simp [lexemes, lacks_cons, lacks_append, Lexeme.Lacks, TypeExpr.lacks, lacks_commas]
  rw [hrest]
  refine and_congr ?_ ?_
  · cases f.description with
    | none => simp [descriptionLexemes, lacks_nil]
    | some content => simp [descriptionLexemes, lacks_cons, lacks_nil, Lexeme.Lacks]
  · cases f.arguments with
    | none => simp [argumentLexemes, lacks_nil]
    | some arguments =>
      simp [argumentLexemes, lacks_cons, lacks_append, lacks_nil, lacks_flatMap, Lexeme.Lacks]

/-- The body of a type is what stands before its closing brace. -/
theorem body?_lexemes {fields : List NotedField} (hclosed : ∀ f ∈ fields, Lacks '\x7d' f.lexemes)
    (h : Spelled tail (fields.flatMap NotedField.lexemes ++ .sign '\x7d' :: lexemes) cs) :
    ∃ body after, body? cs = some (body, after) ∧
      Spelled [] (fields.flatMap NotedField.lexemes) body ∧ Spelled tail lexemes after := by
  obtain ⟨body, after, rfl, hclosing, hbody, hafter⟩ :=
    h.cut_at (by decide) (lacks_flatMap.2 hclosed)
  obtain ⟨htake, hdrop⟩ := span_until hclosing after
  refine ⟨body, after, ?_, hbody, hafter⟩
  rw [body?, htake, hdrop]
  rfl

/-! ### What is found -/

/-- A type with fields as it is read. -/
def Definition.declared? (d : Definition) : Option (String × List FieldDecl) :=
  d.object?.map fun (name, fields) => (name, FieldDecl.collect (fields.map FieldDef.decl))

/-- Behind one of the keywords of types a name is found. -/
theorem findSome?_named? (kind : ObjectKind) (h : Spelled tail (.word name :: lexemes) rest)
    (hends : Ends rest) :
    ∃ after, (objectKeywords.findSome? fun keyword =>
        named? keyword (kind.keyword.toList ++ rest)) = some (name, after) ∧
      Spelled tail lexemes after := by
  have hwords := objectTypes_beginsWith.words
  have hother : ∀ other ∈ objectKeywords, kind.keyword ≠ other →
      named? other (kind.keyword.toList ++ rest) = none := fun other hmem hne =>
    named?_of_ne (hwords other hmem) (hwords _ kind.keyword_mem) hends hne
  obtain ⟨after, hnamed, hafter⟩ := named?_word kind.keyword h hends
  refine ⟨after, ?_, hafter⟩
  simp only [objectKeywords, List.findSome?_cons]
  cases kind with
  | type => rw [show named? "type" _ = _ from hnamed]
  | input => rw [hother "type" (by decide) (by decide), show named? "input" _ = _ from hnamed]
  | interface =>
    rw [hother "type" (by decide) (by decide), hother "input" (by decide) (by decide),
      show named? "interface" _ = _ from hnamed]

/-- In what has no notes there is no quoted text. -/
theorem allHushed_plain {α : Type} (r : Recogniser α) (tokens : List Token) :
    AllHushed r (plain tokens) := fun content hmem =>
  absurd hmem (quoted_not_mem_plain content tokens)

/-- Behind the keyword of a type stand its name, perhaps its interfaces, and its body. -/
theorem exists_body (kind : ObjectKind) {interfaces : Option (String × List Token)}
    (h : Spelled tail (.word name :: (plain (Definition.interfaceTokens interfaces)
      ++ .sign '\x7b' :: lexemes)) rest) (hends : Ends rest)
    (hothers : ∀ first others, interfaces = some (first, others) → Loose ['&', ','] others) :
    ∃ inner, Spelled tail lexemes inner ∧ ∀ {body after}, body? inner = some (body, after) →
      objectType? (kind.keyword.toList ++ rest) = some ((name, body), after) := by
  obtain ⟨header, hnamed, hheader⟩ := findSome?_named? kind h hends
  obtain ⟨inner, hopen, hinner⟩ := afterHeader?_lexemes hheader hothers
  refine ⟨inner, hinner, fun hbody => ?_⟩
  simp only [objectType?, hnamed, Option.bind_some, hopen, hbody, Option.map_some]

theorem finds_object (h : d.Allowed) (hclosed : d.Closed) :
    Finds objectTypes (fun (name, body) => (name, FieldDecl.read body))
      (fun d => d.bare.declared?) d := by
  cases d with
  | object kind name interfaces fields =>
    refine objectTypes_beginsWith.finds_own fun more rest hrest hends => ?_
    have hlexemes : Spelled [] (.word name :: (plain (Definition.interfaceTokens interfaces)
        ++ .sign '\x7b' :: (fields.flatMap NotedField.lexemes ++ .sign '\x7d' :: more))) rest := by
      simpa [NotedDefinition.tail, NotedDefinition.lexemes] using hrest
    obtain ⟨inner, hinner, hread⟩ := exists_body kind hlexemes hends fun first others heq =>
      (h.1.2.1 first others heq).2
    obtain ⟨body, after, hclose, hbody, hafter⟩ := body?_lexemes hclosed hinner
    refine ⟨(name, body), [], after, hread hclose, ?_, .nil, hafter⟩
    have hdecls : (fields.map NotedField.bare).map FieldDef.decl
        = fields.map fun f => f.bare.decl := List.map_map
    show _ = some (name, FieldDecl.collect (FieldDecl.readAll body))
    rw [Spelled.readAll_body hbody, NotedDefinition.fields, ← hdecls]
    rfl
  | other d hplain =>
    refine objectTypes_beginsWith.finds_other h (allHushed_plain _ _) ?_ (congrArg _ hplain)
    cases d with
    | object kind name interfaces fields => cases hplain
    | _ => simp [NotedDefinition.bare, Definition.keyword, objectKeywords]

theorem finds_enum (h : d.Allowed) (hushed : AllHushed enums d.lexemes) :
    Finds enums id (fun d => d.bare.enum?) d := by
  have hother : d.bare.keyword ∉ ["enum"] → d.bare.enum? = none →
      Finds enums id (fun d => d.bare.enum?) d := fun hkeyword hnone =>
    enums_beginsWith.finds_other h hushed hkeyword hnone
  rcases d with ⟨kind, name, interfaces, fields⟩ | ⟨d, hplain⟩
  · exact hother (by simp [NotedDefinition.bare, Definition.keyword, ObjectKind.keyword_ne]) rfl
  cases d with
  | enum name braces values =>
    refine enums_beginsWith.finds_own fun more rest hrest hends => ?_
    have hquiet : Quiet enums ["enum"] (plain values) := h.1.2.quiet enums_beginsWith.areKinds
    -- behind the sign there is nothing but the values and perhaps a brace
    obtain ⟨sign, left, hsign, hleft, htail⟩ : ∃ sign left, sign ∈ ['=', '\x7b'] ∧
        Quiet enums ["enum"] left ∧
        (NotedDefinition.other (.enum name braces values) hplain).tail
          = .word name :: .sign sign :: left := by
      cases braces with
      | true =>
        exact ⟨'\x7b', plain values ++ [.sign '\x7d'], by decide, hquiet.append (.sign .nil),
          by simp [NotedDefinition.tail, NotedDefinition.lexemes, Definition.tokens]⟩
      | false => exact ⟨'=', _, by decide, hquiet, rfl⟩
    rw [htail] at hrest
    obtain ⟨after, hnamed, hafter⟩ := named?_word "enum" hrest hends
    obtain ⟨inner, hopen, hinner⟩ := hafter.afterOneOf? hsign
    refine ⟨name, left, inner, ?_, rfl, hleft, hinner⟩
    show enum? ("enum".toList ++ rest) = _
    simp only [enum?, hnamed, Option.bind_some, hopen, Option.map_some]
  | object kind name interfaces fields => cases hplain
  | _ => exact hother (by simp [NotedDefinition.bare, Definition.keyword]) rfl

theorem finds_union (h : d.Allowed) (hushed : AllHushed unions d.lexemes) :
    Finds unions id (fun d => d.bare.union?) d := by
  have hother : d.bare.keyword ∉ ["union"] → d.bare.union? = none →
      Finds unions id (fun d => d.bare.union?) d := fun hkeyword hnone =>
    unions_beginsWith.finds_other h hushed hkeyword hnone
  rcases d with ⟨kind, name, interfaces, fields⟩ | ⟨d, hplain⟩
  · exact hother (by simp [NotedDefinition.bare, Definition.keyword, ObjectKind.keyword_ne]) rfl
  cases d with
  | union name colon bar first others =>
    refine unions_beginsWith.finds_own fun more rest hrest hends => ?_
    obtain ⟨⟨-, -, hothers⟩, -⟩ := h
    obtain ⟨sign, hsign, hrest'⟩ : ∃ sign ∈ [':', '='], Spelled [] (.word name :: .sign sign
        :: (plain (if bar then [.sign '|'] else []) ++ .word first :: (plain others ++ more)))
        rest := by
      refine ⟨if colon then ':' else '=', by cases colon <;> decide, ?_⟩
      simpa [NotedDefinition.tail, NotedDefinition.lexemes, Definition.tokens] using hrest
    obtain ⟨after, hnamed, hafter⟩ := named?_word "union" hrest' hends
    obtain ⟨inner, hopen, hinner⟩ := hafter.afterOneOf? hsign
    have hbar : Spelled [] (.word first :: (plain others ++ more))
        (FieldDecl.dropChar '|' (dropBlanks inner)) := by
      cases bar with
      | true => exact hinner.dropChar_sign
      | false => exact hinner.dropChar_other (by decide) (by simp)
    obtain ⟨left, hnext, hword, hends', hleft⟩ := hbar.next_word
    refine ⟨(name, first), plain others, left, ?_, rfl,
      hothers.quiet unions_beginsWith.areKinds, hleft⟩
    show union? ("union".toList ++ rest) = _
    simp only [union?, hnamed, Option.bind_some, hopen, hnext, word?_word hword hends',
      Option.map_some]
  | object kind name interfaces fields => cases hplain
  | _ => exact hother (by simp [NotedDefinition.bare, Definition.keyword]) rfl

theorem finds_scalar (h : d.Allowed) (hushed : AllHushed scalars d.lexemes) :
    Finds scalars id (fun d => d.bare.scalar?) d := by
  have hother : d.bare.keyword ∉ ["scalar"] → d.bare.scalar? = none →
      Finds scalars id (fun d => d.bare.scalar?) d := fun hkeyword hnone =>
    scalars_beginsWith.finds_other h hushed hkeyword hnone
  rcases d with ⟨kind, name, interfaces, fields⟩ | ⟨d, hplain⟩
  · exact hother (by simp [NotedDefinition.bare, Definition.keyword, ObjectKind.keyword_ne]) rfl
  cases d with
  | scalar name =>
    refine scalars_beginsWith.finds_own fun more rest hrest hends => ?_
    obtain ⟨after, hnamed, hafter⟩ := named?_word "scalar" hrest hends
    exact ⟨name, [], after, hnamed, rfl, .nil, hafter⟩
  | object kind name interfaces fields => cases hplain
  | _ => exact hother (by simp [NotedDefinition.bare, Definition.keyword]) rfl

/-! ### The whole text -/

section Noted

variable {definitions : List NotedDefinition} (hallowed : ∀ d ∈ definitions, d.Allowed)
variable (h : Spelled [] (lexemesOf definitions) cs)

include hallowed h

/-- **The types with fields are found**, each with its fields, if no closing brace stands in their
notes. -/
theorem noted_objects (hclosed : ∀ d ∈ definitions, d.Closed) :
    (objectTypes.scan false cs).map (fun (name, body) => (name, FieldDecl.read body))
      = definitions.filterMap fun d => d.bare.declared? :=
  objectTypes_beginsWith.scan_eq h fun d hd => finds_object (hallowed d hd) (hclosed d hd)

/-- **The enums are found**, and nothing else if nothing is found in quoted texts. -/
theorem noted_enums (hushed : AllHushed enums (lexemesOf definitions)) :
    enums.scan false cs = definitions.filterMap fun d => d.bare.enum? := by
  rw [← enums_beginsWith.scan_eq h fun d hd => finds_enum (hallowed d hd)
    (hushed.of_flatMap hd), List.map_id]

/-- **The unions are found**, each with its first alternative. -/
theorem noted_unions (hushed : AllHushed unions (lexemesOf definitions)) :
    unions.scan false cs = definitions.filterMap fun d => d.bare.union? := by
  rw [← unions_beginsWith.scan_eq h fun d hd => finds_union (hallowed d hd)
    (hushed.of_flatMap hd), List.map_id]

/-- **The scalars are found.** -/
theorem noted_scalars (hushed : AllHushed scalars (lexemesOf definitions)) :
    scalars.scan false cs = definitions.filterMap fun d => d.bare.scalar? := by
  rw [← scalars_beginsWith.scan_eq h fun d hd => finds_scalar (hallowed d hd)
    (hushed.of_flatMap hd), List.map_id]

end Noted

section Plain

variable {definitions : List Definition}

/-- Without notes the fields of a type have no closing brace in them. -/
theorem Definition.closed_noted (d : Definition) : d.noted.Closed := by
  cases d with
  | object kind name interfaces fields =>
    intro f hf
    obtain ⟨f, -, rfl⟩ := List.mem_map.1 hf
    refine NotedField.lacks_iff.2 ⟨nofun, fun arguments hnoted a ha => ?_⟩
    obtain ⟨bare, -, rfl⟩ := Option.map_eq_some_iff.1 hnoted
    obtain ⟨a, -, rfl⟩ := List.mem_map.1 ha
    exact NotedArgument.lacks_iff.2 nofun
  | _ => exact nofun

theorem hushed_noted {α : Type} (r : Recogniser α) (definitions : List Definition) :
    AllHushed r (lexemesOf (definitions.map Definition.noted)) := by
  rw [lexemesOf_noted]
  exact allHushed_plain r _

theorem spelled_noted (h : Renders (tokensOf definitions) cs) :
    Spelled [] (lexemesOf (definitions.map Definition.noted)) cs := by
  rw [lexemesOf_noted]
  exact spelled_plain_iff.2 h

theorem allowed_noted (hallowed : ∀ d ∈ definitions, d.Allowed) :
    ∀ d ∈ definitions.map Definition.noted, d.Allowed :=
  List.forall_mem_map.2 fun d hd => (hallowed d hd).noted

variable (hallowed : ∀ d ∈ definitions, d.Allowed) (h : Renders (tokensOf definitions) cs)

include hallowed h

/-- **The types with fields are found**, each with its fields. -/
theorem scan_objects :
    (objectTypes.scan false cs).map (fun (name, body) => (name, FieldDecl.read body))
      = definitions.filterMap Definition.declared? := by
  rw [noted_objects (allowed_noted hallowed) (spelled_noted h)
    (List.forall_mem_map.2 fun d _ => d.closed_noted), List.filterMap_map]
  simp only [Function.comp_def, Definition.bare_noted]

/-- **The enums are found.** -/
theorem scan_enums : enums.scan false cs = definitions.filterMap Definition.enum? := by
  rw [noted_enums (allowed_noted hallowed) (spelled_noted h) (hushed_noted _ _),
    List.filterMap_map]
  simp only [Function.comp_def, Definition.bare_noted]

/-- **The unions are found**, each with its first alternative. -/
theorem scan_unions : unions.scan false cs = definitions.filterMap Definition.union? := by
  rw [noted_unions (allowed_noted hallowed) (spelled_noted h) (hushed_noted _ _),
    List.filterMap_map]
  simp only [Function.comp_def, Definition.bare_noted]

/-- **The scalars are found.** -/
theorem scan_scalars : scalars.scan false cs = definitions.filterMap Definition.scalar? := by
  rw [noted_scalars (allowed_noted hallowed) (spelled_noted h) (hushed_noted _ _),
    List.filterMap_map]
  simp only [Function.comp_def, Definition.bare_noted]

end Plain

end SchemaSyntax

end GraphWalk
