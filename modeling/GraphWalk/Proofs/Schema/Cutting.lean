import GraphWalk.Proofs.Schema.Quoted
import GraphWalk.Proofs.Schema.RoundTrip

/-!
# Types that are cut short

The body of a type ends at the first closing brace behind its opening one, wherever that
stands: a brace in a note counts as well.  The fields before the one that has it are read,
this one and those behind it are not, and what is left of the body is no part of anything.

## Main definitions

* `NotedField.Whole` — no closing brace stands in a field.
* `NotedDefinition.kept` — a type with the fields that are read.
* `Unread` — the beginning of a field that makes none.

## Main results

* `NotedField.exists_cut` — where a field is cut.
* `Spelled.readAll_unread` — what is left of it is not read.
* `finds_kept` — **a type is found with the fields that are kept.**
* `ofChars_noted` — **what is declared in a text with notes.**
-/

namespace GraphWalk

namespace SchemaSyntax

open Text FieldDecl Declaration

variable {lexemes more : List Lexeme} {ℓ : Lexeme} {cs rest tail : List Char} {c : Char}
variable {kind : Char × Char}

/-! ### What is kept -/

/-- No closing brace stands in a field, not in its notes either. -/
def NotedField.Whole (f : NotedField) : Prop := Lacks '\x7d' f.lexemes

instance (f : NotedField) : Decidable f.Whole := inferInstanceAs (Decidable (Lacks _ _))

/-- A type with the fields that are read: those before the first that is not whole. -/
def NotedDefinition.kept : NotedDefinition → NotedDefinition
  | object kind name interfaces fields =>
    .object kind name interfaces (fields.takeWhile fun f => f.Whole)
  | other d plain => .other d plain

theorem NotedDefinition.Closed.kept_eq {d : NotedDefinition} (h : d.Closed) : d.kept = d := by
  cases d with
  | object kind name interfaces fields =>
    have hall : (fields.takeWhile fun f => f.Whole) = fields :=
      List.takeWhile_eq_self_iff.2 fun f hf => decide_eq_true (h f hf)
    rw [kept, hall]
  | other d plain => rfl

/-! ### Where a field is cut -/

/-- Of some values that do not all have a property one is the first that has not. -/
theorem exists_first {α : Type} {p : α → Prop} [DecidablePred p] {items : List α}
    (h : ¬ ∀ x ∈ items, p x) :
    ∃ before x behind, items = before ++ x :: behind ∧ (items.takeWhile fun x => p x) = before ∧
      (∀ y ∈ before, p y) ∧ ¬ p x := by
  induction items with
  | nil => exact absurd nofun h
  | cons x items ih =>
    by_cases hx : p x
    · obtain ⟨before, y, behind, rfl, hkept, hbefore, hy⟩ := ih fun hall =>
        h (List.forall_mem_cons.2 ⟨hx, hall⟩)
      refine ⟨x :: before, y, behind, rfl, ?_, List.forall_mem_cons.2 ⟨hx, hbefore⟩, hy⟩
      rw [List.takeWhile_cons, decide_eq_true hx, if_pos rfl, hkept]
    · refine ⟨[], x, items, rfl, ?_, nofun, hx⟩
      rw [List.takeWhile_cons, decide_eq_false hx, if_neg Bool.false_ne_true]

/-- The beginning of a field that makes none: nothing, or a name behind which a parenthesis is not
closed. -/
inductive Unread : List Lexeme → Prop
  /-- Nothing. -/
  | nil : Unread []
  /-- A name, and arguments without an end. -/
  | arguments {inner : List Lexeme} (description : Option (List Char)) (name : String)
      (balanced : Balanced ('(', ')') inner) :
      Unread (descriptionLexemes description ++ .word name :: .sign '(' :: inner)

theorem sign_mem_commas {n : Nat} (h : .sign c ∈ plain (commas n)) : c = ',' := by
  obtain ⟨token, htoken, heq⟩ := List.mem_map.1 h
  rw [List.eq_of_mem_replicate htoken] at heq
  exact (Lexeme.sign.inj heq).symm

/-- The signs of values. -/
def valueSigns : List Char := ['[', ']', '\x7b', '\x7d', ':', ',']

theorem Unread.head?_ne_sign (h : Unread lexemes) (c : Char) : lexemes.head? ≠ some (.sign c) := by
  cases h with
  | nil => exact nofun
  | arguments description name balanced => cases description <;> exact nofun

mutual

theorem Literal.sign_mem (l : Literal) (h : .sign c ∈ l.lexemes) : c ∈ valueSigns := by
  cases l with
  | numeral digits => cases List.mem_singleton.1 h
  | name name => cases List.mem_singleton.1 h
  | text content => cases List.mem_singleton.1 h
  | list items =>
    simp only [Literal.lexemes, List.mem_cons, List.mem_append, Lexeme.sign.injEq,
      List.not_mem_nil, or_false] at h
    rcases h with rfl | h | rfl
    · decide
    · exact items.sign_mem h
    · decide
  | object members =>
    simp only [Literal.lexemes, List.mem_cons, List.mem_append, Lexeme.sign.injEq,
      List.not_mem_nil, or_false] at h
    rcases h with rfl | h | rfl
    · decide
    · exact members.sign_mem h
    · decide

theorem Items.sign_mem (items : Items) (h : .sign c ∈ items.lexemes) : c ∈ valueSigns := by
  cases items with
  | nil => cases h
  | cons item n rest =>
    simp only [Items.lexemes, List.mem_append] at h
    rcases h with h | h | h
    · exact item.sign_mem h
    · rw [sign_mem_commas h]
      decide
    · exact rest.sign_mem h

theorem Members.sign_mem (members : Members) (h : .sign c ∈ members.lexemes) :
    c ∈ valueSigns := by
  cases members with
  | nil => cases h
  | cons name value n rest =>
    simp only [Members.lexemes, List.mem_cons, List.mem_append, Lexeme.sign.injEq, reduceCtorEq,
      false_or] at h
    rcases h with rfl | h | h | h
    · decide
    · exact value.sign_mem h
    · rw [sign_mem_commas h]
      decide
    · exact rest.sign_mem h

end

/-- No parenthesis stands in an argument. -/
theorem NotedArgument.sign_mem {a : NotedArgument} (h : .sign c ∈ a.lexemes) :
    c ∈ '=' :: '!' :: valueSigns := by
  simp only [NotedArgument.lexemes, List.mem_cons, List.mem_append, Lexeme.sign.injEq, reduceCtorEq,
    false_or] at h
  rcases h with rfl | h | h | h
  · decide
  · obtain ⟨token, htoken, heq⟩ := List.mem_map.1 h
    cases token with
    | word name => cases heq
    | sign d =>
      cases heq
      have hsign := TypeExpr.sign_mem_tokens htoken
      simp only [List.mem_cons, List.not_mem_nil, or_false] at hsign
      rcases hsign with rfl | rfl | rfl <;> decide
  · cases hdefault : a.default with
    | none =>
      rw [hdefault] at h
      cases h
    | some l =>
      rw [hdefault, defaultLexemes, List.mem_cons, Lexeme.sign.injEq] at h
      rcases h with rfl | h
      · exact List.mem_cons_self
      · exact List.mem_cons_of_mem _ (List.mem_cons_of_mem _ (l.sign_mem h))
  · rw [sign_mem_commas h]
    decide

/-- **Where a field is cut**: at the first lexeme that has a closing brace.  What stands before it
makes no field. -/
theorem NotedField.exists_cut {f : NotedField} (h : ¬ f.Whole) :
    ∃ before ℓ behind, f.lexemes = before ++ ℓ :: behind ∧ Lacks '\x7d' before ∧
      ¬ ℓ.Lacks '\x7d' ∧ Unread before := by
  have hplaces := NotedField.lacks_iff.not.1 h
  by_cases hdescription : ∃ content, f.description = some content ∧ '\x7d' ∈ content
  · obtain ⟨content, heq, hmem⟩ := hdescription
    have hlexemes : f.lexemes = [] ++ .quoted content :: (.word f.name ::
        (argumentLexemes f.arguments
          ++ .sign ':' :: (plain f.type.tokens ++ plain (SchemaSyntax.commas f.commas)))) := by
      rw [NotedField.lexemes, heq]
      rfl
    exact ⟨_, _, _, hlexemes, lacks_nil, fun hlacks => hlacks hmem, .nil⟩
  · -- otherwise the first brace stands in the arguments, before their closing parenthesis
    have hwhole : ∀ content, f.description = some content → '\x7d' ∉ content :=
      fun content heq hmem => hdescription ⟨content, heq, hmem⟩
    have hlacks : Lacks '\x7d' (descriptionLexemes f.description) := by
      cases heq : f.description with
      | none => exact lacks_nil
      | some content => exact lacks_cons.2 ⟨hwhole content heq, lacks_nil⟩
    cases harguments : f.arguments with
    | none =>
      refine absurd ⟨hwhole, fun arguments heq => ?_⟩ hplaces
      rw [harguments] at heq
      cases heq
    | some arguments =>
      have hbroken : ¬ Lacks '\x7d' (arguments.flatMap NotedArgument.lexemes) := by
        intro hlacks
        refine hplaces ⟨hwhole, fun others heq => ?_⟩
        rw [harguments] at heq
        cases heq
        exact lacks_flatMap.1 hlacks
      obtain ⟨inner, ℓ, behind, hsplit, -, hinner, hℓ⟩ := exists_first hbroken
      have hlexemes : f.lexemes
          = (descriptionLexemes f.description ++ .word f.name :: .sign '(' :: inner) ++ ℓ ::
              (behind ++ .sign ')' :: .sign ':' ::
                (plain f.type.tokens ++ plain (SchemaSyntax.commas f.commas))) := by
        rw [NotedField.lexemes, harguments, argumentLexemes, hsplit]
        simp
      have hparens : ∀ d ∉ '=' :: '!' :: valueSigns, Lexeme.sign d ∉ inner := by
        intro d hd hmem
        have hall : Lexeme.sign d ∈ arguments.flatMap NotedArgument.lexemes := by
          rw [hsplit]
          exact List.mem_append_left _ hmem
        obtain ⟨a, -, ha⟩ := List.mem_flatMap.1 hall
        exact hd (NotedArgument.sign_mem ha)
      refine ⟨_, ℓ, _, hlexemes, ?_, hℓ, ?_⟩
      · exact lacks_append.2 ⟨hlacks, lacks_cons.2 ⟨trivial, lacks_cons.2 ⟨by decide, hinner⟩⟩⟩
      · exact .arguments _ _
          (balanced_of_not_mem (hparens _ (by decide)) (hparens _ (by decide)))

/-! ### What is left of a field -/

/-- What a text shows ends before its tail. -/
theorem Spelled.split_tail (h : Spelled tail lexemes cs) :
    ∃ inner, cs = inner ++ tail ∧ Spelled [] lexemes inner ∧ IsTail tail := by
  induction h with
  | @nil gap blank isTail =>
    have hgap : Spelled [] [] (gap ++ []) := .nil blank (.inl rfl)
    rw [List.append_nil] at hgap
    exact ⟨gap, rfl, hgap, isTail⟩
  | @cons gap cs ℓ lexemes blank valid ends _ ih =>
    obtain ⟨inner, rfl, hinner, htail⟩ := ih
    refine ⟨gap ++ (ℓ.chars ++ inner), by simp, .cons blank valid (fun d hd => ends d ?_) hinner,
      htail⟩
    cases inner with
    | nil => cases hd
    | cons e inner => exact hd

/-- A text may be cut inside a quoted text: up to there it ends in one that is not closed. -/
theorem Spelled.split_quoted {before : List Lexeme} {content : List Char}
    (h : Spelled tail (before ++ .quoted content :: more) cs) :
    ∃ inner rest, cs = inner ++ '"' :: (content ++ '"' :: rest) ∧ Spelled [] before inner ∧
      (∀ unclosed, afterQuoted unclosed = [] →
        Spelled ('"' :: unclosed) before (inner ++ '"' :: unclosed)) ∧ Spelled tail more rest := by
  induction before generalizing cs with
  | nil =>
    cases h with
    | @cons gap cs _ _ blank _ _ rest =>
      refine ⟨gap, cs, by rw [Lexeme.chars_quoted_append], ?_, ?_, rest⟩
      · have hgap : Spelled [] [] (gap ++ []) := .nil blank (.inl rfl)
        rwa [List.append_nil] at hgap
      · exact fun unclosed hopen => .nil blank (.inr ⟨unclosed, rfl, hopen⟩)
  | cons ℓ before ih =>
    cases h with
    | @cons gap _ _ _ blank valid ends rest =>
      obtain ⟨inner, after, rfl, hinner, hunclosed, hafter⟩ := ih rest
      refine ⟨gap ++ (ℓ.chars ++ inner), after, by simp, .cons blank valid ?_ hinner, ?_, hafter⟩
      · intro d hd
        cases inner with
        | nil => cases hd
        | cons first inner => exact ends d hd
      · intro unclosed hopen
        rw [List.append_assoc, List.append_assoc]
        refine .cons blank valid ?_ (hunclosed unclosed hopen)
        -- the lexeme is followed by the same character as before
        cases inner <;> exact ends

/-- A bracket that is not closed takes the whole text. -/
theorem Spelled.span_open (h : Spelled tail lexemes cs) (hbalanced : Balanced kind lexemes)
    (hkind : kind ∈ brackets) : (spanBalanced kind.1 kind.2 0 cs).2 = [] := by
  obtain ⟨inner, rfl, hinner, htail⟩ := h.split_tail
  rw [hbalanced.passedOver hkind hinner]
  rcases htail with rfl | ⟨content, rfl, hopen⟩
  · rw [spanBalanced]
  · rw [spanBalanced.eq_def]
    dsimp only
    rw [if_pos rfl, show (spanQuoted content).2 = [] from hopen, spanBalanced]

theorem readAll_skipped {more : List Char} (htrivia : dropTrivia cs = c :: more)
    (hitem : (item c more).1 = .skipped) : readAll cs = readAll (item c more).2 := by
  rw [readAll]
  split
  · next hnil =>
    rw [htrivia] at hnil
    cases hnil
  · next d more' htrivia' =>
    rw [htrivia] at htrivia'
    cases htrivia'
    split
    · rfl
    all_goals
      next hfield =>
        rw [hitem] at hfield
        cases hfield

/-- **What is left of a field is not read.** -/
theorem Spelled.readAll_unread {n : Nat} (hunread : Unread lexemes)
    (h : Spelled tail (plain (commas n) ++ lexemes) cs) : readAll cs = [] := by
  cases hunread with
  | nil =>
    rw [List.append_nil] at h
    exact readAll_nil h.dropTrivia_nil
  | @arguments inner description name hbalanced =>
    obtain ⟨c, first, more, htrivia, hname, hword, hends, hmore⟩ := h.dropTrivia_field
    obtain ⟨text, hopen, -, htext⟩ := hmore.next_sign
    have hsplit : name.toList ++ more = c :: (first ++ more) := by
      rw [hname, List.cons_append]
    have hrest := htext.span_open hbalanced (by decide)
    have harguments : spanArguments more = (some (spanBalanced '(' ')' 0 text).1, []) := by
      rw [spanArguments, hopen]
      exact Prod.ext rfl hrest
    have hnonempty : ¬ name.toList.isEmpty = true := List.isEmpty_iff.not.2 hword.1
    have hitem : item c (first ++ more) = (.skipped, []) := by
      rw [item, ← hsplit, spanName_word hword hends, if_neg hnonempty, harguments]
      rfl
    rw [readAll_skipped htrivia (congrArg Prod.fst hitem), hitem]
    exact readAll_nil (by rw [dropTrivia])

/-- Of a body that is cut the whole fields are read. -/
theorem read_cut {fields : List NotedField} (hunread : Unread lexemes)
    (h : Spelled tail (fields.flatMap NotedField.lexemes ++ lexemes) cs) :
    FieldDecl.read cs = collect ((fields.map NotedField.bare).map FieldDef.decl) := by
  obtain ⟨m, unread, hleft, hfields⟩ := Spelled.readAll_fields (n := 0) h hunread.head?_ne_sign
  rw [FieldDecl.read, hfields, hleft.readAll_unread hunread, List.append_nil, List.map_map]
  rfl

/-! ### Cutting a text at its first closing brace -/

/-- A part of a quoted text is never closed. -/
theorem afterQuoted_eq_nil {run : List Char} (h : isQuotable (run ++ c :: rest) = true) :
    afterQuoted run = [] := by
  fun_induction spanQuoted run with
  | case1 => rfl
  | case2 => rfl
  | case3 d cs ih => exact ih h
  | case4 cs => cases h
  | case5 d cs hlone hescape hquote ih =>
    have hbackslash : d ≠ '\\' := by
      rintro rfl
      cases cs with
      | nil => exact hlone rfl rfl
      | cons e cs => exact hescape e cs rfl rfl
    have hrest : isQuotable (cs ++ c :: rest) = true := by
      rw [List.cons_append, isQuotable] at h
      · exact (Bool.and_eq_true_iff.1 h).2
      all_goals
        intros
        contradiction
    have hplain : spanQuoted (d :: cs) = (d :: (spanQuoted cs).1, (spanQuoted cs).2) := by
      rw [spanQuoted] <;> intros <;> contradiction
    rw [afterQuoted, hplain]
    exact ih hrest

/-- **A text is cut at its first closing brace**, inside a quoted text or outside. -/
theorem Spelled.cut_brace {before : List Lexeme} (h : Spelled [] (before ++ ℓ :: more) cs)
    (hbefore : Lacks '\x7d' before) (hℓ : ¬ ℓ.Lacks '\x7d')
    (hbodiless : ∀ content, ℓ = .quoted content → Bodiless content) :
    ∃ tail body after rest, body? cs = some (body, after) ∧ Spelled tail before body ∧
      Spelled [] more rest ∧ objectTypes.scan false after = objectTypes.scan false rest := by
  have hcut : ∀ {body after : List Char}, (∀ d ∈ body, d ≠ '\x7d') →
      body? (body ++ '\x7d' :: after) = some (body, after) := by
    intro body after hbody
    obtain ⟨htake, hdrop⟩ := span_until hbody after
    rw [body?, htake, hdrop]
    rfl
  cases ℓ with
  | word name => exact absurd trivial hℓ
  | numeral digits => exact absurd trivial hℓ
  | sign d =>
    obtain rfl : '\x7d' = d := not_not.1 hℓ
    obtain ⟨body, after, rfl, hbody, hbefore, hafter⟩ := h.cut_at (by decide) hbefore
    exact ⟨[], body, after, after, hcut hbody, hbefore, hafter, rfl⟩
  | quoted content =>
    obtain ⟨run, behind, rfl, hrun⟩ := List.eq_append_cons_of_mem (not_not.1 hℓ)
    have hvalid := h.valid _ (List.mem_append_right before List.mem_cons_self)
    obtain ⟨inner, rest, rfl, hinner, hunclosed, hrest⟩ := h.split_quoted
    have hbody : ∀ d ∈ inner ++ '"' :: run, d ≠ '\x7d' := by
      intro d hd
      rcases List.mem_append.1 hd with hd | hd
      · exact ne_of_mem_of_not_mem hd (hinner.not_mem (by decide) hbefore)
      · rcases List.mem_cons.1 hd with rfl | hd
        · decide
        · exact ne_of_mem_of_not_mem hd hrun
    have hsplit : inner ++ '"' :: (run ++ '\x7d' :: behind ++ '"' :: rest)
        = (inner ++ '"' :: run) ++ '\x7d' :: (behind ++ '"' :: rest) := by
      simp
    rw [hsplit]
    exact ⟨_, _, _, rest, hcut hbody, hunclosed run (afterQuoted_eq_nil hvalid), hrest,
      (hbodiless _ rfl).behind.hushed rest⟩

/-! ### What is found -/

variable {α : Type} {r : Recogniser α} {kinds : List String}

theorem Quiet.of_cons (h : Quiet r kinds (ℓ :: lexemes)) : Quiet r kinds lexemes := by
  cases h with
  | sign rest => exact rest
  | word _ rest => exact rest
  | before rest => exact .sign rest
  | numeral rest => exact rest
  | quoted _ rest => exact rest

theorem Quiet.of_append (h : Quiet r kinds (lexemes ++ more)) : Quiet r kinds more := by
  induction lexemes with
  | nil => exact h
  | cons ℓ lexemes ih => exact ih h.of_cons

/-- Where the fields of a type are cut that are not all whole. -/
theorem fields_cut {fields : List NotedField} (h : ¬ ∀ f ∈ fields, f.Whole) :
    ∃ before ℓ behind, fields.flatMap NotedField.lexemes
        = (fields.takeWhile fun f => f.Whole).flatMap NotedField.lexemes
          ++ (before ++ ℓ :: behind) ∧
      Lacks '\x7d' ((fields.takeWhile fun f => f.Whole).flatMap NotedField.lexemes ++ before) ∧
      ¬ ℓ.Lacks '\x7d' ∧ Unread before := by
  obtain ⟨first, f, others, rfl, hkept, hfirst, hf⟩ := exists_first h
  obtain ⟨before, ℓ, behind, hlexemes, hbefore, hℓ, hunread⟩ := NotedField.exists_cut hf
  refine ⟨before, ℓ, behind ++ others.flatMap NotedField.lexemes, ?_, ?_, hℓ, hunread⟩
  · rw [hkept, List.flatMap_append, List.flatMap_cons, hlexemes]
    simp
  · rw [hkept]
    exact lacks_append.2 ⟨lacks_flatMap.2 hfirst, hbefore⟩

/-- **A type is found with the fields that are kept**, if nothing that is left of its body declares
another. -/
theorem finds_kept {d : NotedDefinition} (h : d.Allowed)
    (hcut : d.Closed ∨ ∀ content, .quoted content ∈ d.lexemes → Bodiless content) :
    Finds objectTypes (fun (name, body) => (name, FieldDecl.read body))
      (fun d => d.kept.bare.declared?) d := by
  by_cases hclosed : d.Closed
  · intro more cs hcs
    have hfinds := finds_object h hclosed more cs hcs
    rwa [← hclosed.kept_eq] at hfinds
  cases d with
  | other d plain => exact absurd nofun hclosed
  | object kind name interfaces fields =>
    have hbodiless := hcut.resolve_left hclosed
    have hcutoff : ¬ ∀ f ∈ fields, f.Whole := hclosed
    obtain ⟨before, ℓ, behind, hsplit, hlacks, hℓ, hunread⟩ := fields_cut hcutoff
    intro more cs hcs
    have hlexemes : Spelled [] (.word kind.keyword :: .word name ::
        (plain (Definition.interfaceTokens interfaces) ++ .sign '\x7b' ::
          (((fields.takeWhile fun f => f.Whole).flatMap NotedField.lexemes ++ before) ++ ℓ ::
            (behind ++ [.sign '\x7d'] ++ more)))) cs := by
      simpa [NotedDefinition.lexemes, hsplit] using hcs
    obtain ⟨afterKeyword, hnext, -, hends, hrest⟩ := hlexemes.next_word
    obtain ⟨inner, hinner, hread⟩ := exists_body kind hrest hends fun first others heq =>
      (h.1.2.1 first others heq).2
    obtain ⟨tail, body, after, left, hclose, hbody, hleft, hscan⟩ := hinner.cut_brace hlacks hℓ
      fun content heq => hbodiless content (by simp [NotedDefinition.lexemes, hsplit, heq])
    have hquiet : Quiet objectTypes objectKeywords (behind ++ [.sign '\x7d']) := by
      have hall := NotedDefinition.quiet_tail (r := objectTypes) h
        (fun content hmem => (hbodiless content hmem).hushed) objectTypes_beginsWith.areKinds
      have htail : (NotedDefinition.object kind name interfaces fields).tail
          = (.word name :: (plain (Definition.interfaceTokens interfaces) ++ .sign '\x7b' ::
              ((fields.takeWhile fun f => f.Whole).flatMap NotedField.lexemes ++ before ++ [ℓ])))
            ++ (behind ++ [.sign '\x7d']) := by
        simp [NotedDefinition.tail, NotedDefinition.lexemes, hsplit]
      rw [htail] at hall
      exact hall.of_append
    obtain ⟨rest, hrest', hscan'⟩ := objectTypes_beginsWith.scan_quiet hquiet hleft
    refine ⟨rest, hrest', ?_⟩
    rw [← objectTypes_beginsWith.scan_dropBlanks cs, hnext,
      objectTypes.scan_of_read?_eq_some (hread hclose), List.map_cons, hscan, hscan']
    dsimp only
    rw [read_cut hunread hbody]
    rfl

/-! ### The whole text -/

/-- **What is declared in a text with notes**: types with the fields that are kept, and everything
else as if there were no notes. -/
theorem ofChars_noted {definitions : List NotedDefinition} (hallowed : ∀ d ∈ definitions, d.Allowed)
    (hsilent : ∀ content, .quoted content ∈ lexemesOf definitions → Silent content)
    (hcut : ∀ d ∈ definitions, d.Closed ∨ ∀ content, .quoted content ∈ d.lexemes → Bodiless content)
    (h : Spelled [] (lexemesOf definitions) cs) :
    Declarations.ofChars cs = declarationsOf (definitions.map fun d => d.kept.bare) := by
  obtain ⟨henums, hunions, hscalars⟩ := allHushed_of_silent hsilent
  have hobjects := objectTypes_beginsWith.scan_eq h fun d hd =>
    finds_kept (hallowed d hd) (hcut d hd)
  -- what is not a type has no notes
  have hother : ∀ {β : Type} (found? : Definition → Option β),
      (∀ kind name interfaces fields, found? (.object kind name interfaces fields) = none) →
      (definitions.filterMap fun d => found? d.bare)
        = definitions.filterMap fun d => found? d.kept.bare := by
    intro β found? hobject
    refine List.filterMap_congr fun d _ => ?_
    cases d with
    | object kind name interfaces fields =>
      exact (hobject _ _ _ _).trans (hobject _ _ _ _).symm
    | other d plain => rfl
  rw [Declarations.ofChars, hobjects, noted_enums hallowed h henums,
    noted_unions hallowed h hunions, noted_scalars hallowed h hscalars,
    hother Definition.enum? fun _ _ _ _ => rfl,
    hother Definition.union? fun _ _ _ _ => rfl, hother Definition.scalar? fun _ _ _ _ => rfl]
  simp only [declarationsOf, List.filterMap_map, Function.comp_def]

end SchemaSyntax

end GraphWalk
