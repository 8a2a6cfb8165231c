import Mathlib.Data.List.Induction
import GraphWalk.Proofs.Dict.Entries
import GraphWalk.Proofs.Schema.Brackets

/-!
# Reading fields as they are written

The scanner goes through the body of a type, and a second time through the arguments of
every field.  On a body that shows written fields it stops where each of them ends, and
reads back its name, its arguments and its type.  Descriptions and default values are
passed over, whatever stands in them.

## Main definitions

* `ArgumentDef.decl`, `FieldDef.decl` — a written argument and a written field as they are
  read.

## Main results

* `Spelled.readAll_arguments` — **the arguments of a field.**
* `Spelled.readAll_fields` — **the fields of a body.**
* `FieldDecl.ofList_collect` — repeated names make no difference to a table.
-/

namespace GraphWalk

namespace FieldDecl

/-! ### Repeated names -/

variable {α : Type} (f : FieldDecl → α)

/-- A declaration in place of those of its name, if there are any, is found in their place. -/
theorem get?_map_replace (decls : List FieldDecl) (decl : FieldDecl) (key : String) :
    Dict.get? ((decls.map fun old => if old.name == decl.name then decl else old).map
        fun decl => (decl.name, f decl)) key
      = if key = decl.name ∧ decls.any (·.name == decl.name) then some (f decl)
        else Dict.get? (decls.map fun decl => (decl.name, f decl)) key := by
  induction decls with
  | nil => simp
  | cons old decls ih =>
    rw [List.map_cons, List.map_cons, Dict.get?_cons, ih, List.map_cons, Dict.get?_cons,
      List.any_cons]
    by_cases hkey : key = decl.name
    · by_cases hold : old.name = decl.name
      · simp [hkey, hold]
      · simp [hkey, hold, Ne.symm hold]
    · by_cases hold : old.name = decl.name
      · simp [hkey, hold]
      · simp [hkey, hold]

/-- A declaration that is put among others is put in the table of all. -/
theorem ofList_put (decls : List FieldDecl) (decl : FieldDecl) :
    Dict.ofList ((put decls decl).map fun decl => (decl.name, f decl))
      = Dict.insert (Dict.ofList (decls.map fun decl => (decl.name, f decl))) decl.name
          (f decl) := by
  refine Dict.ext_of_get? (Dict.ascending_ofList _)
    (Dict.ascending_insert (Dict.ascending_ofList _) _ _) fun key => ?_
  rw [Dict.get?_insert, Dict.get?_ofList, Dict.get?_ofList, put]
  -- the last entry of a name counts, so that both ways of putting are told from the back
  split
  · next hany =>
    rw [← List.map_reverse, ← List.map_reverse, ← List.map_reverse, get?_map_replace,
      List.any_reverse]
    simp only [hany, and_true]
  · rw [List.map_append, List.reverse_append]
    rfl

/-- Repeated names make no difference to a table. -/
theorem ofList_collect (decls : List FieldDecl) :
    Dict.ofList ((collect decls).map fun decl => (decl.name, f decl))
      = Dict.ofList (decls.map fun decl => (decl.name, f decl)) := by
  induction decls using List.reverseRecOn with
  | nil => rfl
  | append_singleton decls decl ih =>
    have hcollect : collect (decls ++ [decl]) = put (collect decls) decl := by
      rw [collect, List.foldl_append]
      rfl
    rw [hcollect, ofList_put, ih, List.map_append, Dict.ofList, Dict.ofList, List.foldl_append]
    rfl

end FieldDecl

namespace SchemaSyntax

open Text FieldDecl

variable {lexemes : List Lexeme} {cs rest tail : List Char} {c : Char}
variable {name : String}

/-! ### Arguments -/

/-- The text shows some arguments. -/
def ShowsArguments (arguments : List NotedArgument) (body : List Char) : Prop :=
  Spelled [] (arguments.flatMap NotedArgument.lexemes) body

theorem TypeExpr.sign_mem_tokens {type : TypeExpr} (h : Token.sign c ∈ type.tokens) :
    c ∈ ['[', ']', '!'] := by
  have hmark : ∀ {required}, Token.sign c ∈ mark required → c ∈ ['[', ']', '!'] := by
    intro required hc
    cases required with
    | true =>
      cases List.mem_singleton.1 hc
      decide
    | false => cases hc
  induction type with
  | named name required =>
    rcases List.mem_cons.1 h with h | h
    · cases h
    · exact hmark h
  | list inner required ih =>
    rcases List.mem_cons.1 h with h | h
    · cases h
      decide
    rcases List.mem_append.1 h with h | h
    · exact ih h
    rcases List.mem_cons.1 h with h | h
    · cases h
      decide
    · exact hmark h

/-- No parenthesis stands in a type. -/
theorem TypeExpr.balanced (type : TypeExpr) : Balanced ('(', ')') (plain type.tokens) := by
  have hmem : ∀ c ∉ ['[', ']', '!'], Lexeme.sign c ∉ plain type.tokens := by
    intro c hc hmem
    obtain ⟨token, htoken, heq⟩ := List.mem_map.1 hmem
    cases token with
    | word name => cases heq
    | sign d =>
      cases heq
      exact hc (TypeExpr.sign_mem_tokens htoken)
  exact balanced_of_not_mem (hmem _ (by decide)) (hmem _ (by decide))

/-- Every parenthesis in an argument is closed. -/
theorem NotedArgument.balanced (a : NotedArgument) : Balanced ('(', ')') a.lexemes := by
  have hdefault : Balanced ('(', ')') (defaultLexemes a.default) := by
    cases a.default with
    | none => exact .nil
    | some l => exact .other (by decide) (by decide) (l.balanced (by decide))
  exact .other nofun nofun (.other (by decide) (by decide)
    (a.type.balanced.append (hdefault.append (balanced_commas _ (by decide)))))

/-- **The arguments of a field are cut out**, and its colon is next. -/
theorem Spelled.cut_arguments {arguments : Option (List NotedArgument)}
    (h : Spelled tail (argumentLexemes arguments ++ .sign ':' :: lexemes) cs) :
    ∃ inner rest, spanArguments cs = (inner, rest) ∧ Spelled tail (.sign ':' :: lexemes) rest ∧
      Option.Rel ShowsArguments arguments inner := by
  cases arguments with
  | none =>
    refine ⟨none, dropBlanks cs, ?_, h.without_blanks, .none⟩
    have hhead := h.head_ne (by decide : '(' ∈ signs) nofun
    rw [spanArguments]
    split
    · next hnext =>
      rw [hnext] at hhead
      exact absurd rfl hhead
    · rfl
  | some arguments =>
    rw [argumentLexemes, List.cons_append, List.append_assoc, List.singleton_append] at h
    have hbalanced := balanced_flatMap fun a (_ : a ∈ arguments) => a.balanced
    obtain ⟨text, body, rest, hopen, hspan, hbody, hrest⟩ :=
      h.span_bracket ('(', ')') hbalanced (by decide)
    refine ⟨some body, rest, ?_, hrest, .some hbody⟩
    simp only [spanArguments, hopen]
    rw [hspan]

/-! ### Fields -/

/-- A written argument as it is read. -/
def ArgumentDef.decl (a : ArgumentDef) : FieldDecl := .mk a.name a.type.use none

/-- A written field as it is read. -/
def FieldDef.decl (f : FieldDef) : FieldDecl :=
  .mk f.name f.type.use (f.arguments.map fun arguments => collect (arguments.map ArgumentDef.decl))

theorem item_eq {more after typeText : List Char} {inner : Option (List Char)} {type : TypeUse}
    (hname : name.toList ++ more = c :: cs) (hword : IsWord name) (hends : Ends more)
    (harguments : spanArguments more = (inner, after))
    (hcolon : dropBlanks after = ':' :: typeText) (htype : typeUse? typeText = some (type, rest)) :
    item c cs = (.field name inner type, afterDefault rest) := by
  have hnonempty : ¬ name.toList.isEmpty = true := List.isEmpty_iff.not.2 hword.1
  rw [item, ← hname, spanName_word hword hends, if_neg hnonempty, harguments]
  simp only [hcolon, htype, String.ofList_toList]

theorem readAll_nil (h : dropTrivia cs = []) : readAll cs = [] := by
  rw [readAll]
  split
  · rfl
  · next htrivia =>
    rw [h] at htrivia
    cases htrivia

theorem readAll_field {more : List Char} {inner : Option (List Char)} {type : TypeUse}
    (htrivia : dropTrivia cs = c :: more) (hitem : (item c more).1 = .field name inner type) :
    readAll cs = .mk name type (inner.map fun inner => collect (readAll inner))
      :: readAll (item c more).2 := by
  rw [readAll]
  split
  · next hnil =>
    rw [htrivia] at hnil
    cases hnil
  · next d more' htrivia' =>
    rw [htrivia] at htrivia'
    cases htrivia'
    split
    · next hskipped =>
      rw [hitem] at hskipped
      cases hskipped
    all_goals
      next hfield =>
        rw [hitem] at hfield
        cases hfield
        rfl

/-- The next field of a body is read, up to where its type ends. -/
theorem Spelled.readAll_cons {n : Nat} {description : Option (List Char)}
    {arguments : Option (List NotedArgument)} {type : TypeExpr}
    (h : Spelled tail (plain (commas n) ++ (descriptionLexemes description ++
      .word name :: (argumentLexemes arguments ++ .sign ':' :: (plain type.tokens ++ lexemes)))) cs)
    (hlexemes : lexemes.head? ≠ some (.sign '!')) :
    ∃ inner rest, Spelled tail lexemes rest ∧ Option.Rel ShowsArguments arguments inner ∧
      readAll cs = .mk name type.use (inner.map fun inner => collect (readAll inner))
        :: readAll (afterDefault rest) := by
  obtain ⟨c, first, more, htrivia, hname, hword, hends, hmore⟩ := h.dropTrivia_field
  obtain ⟨inner, after, harguments, hafter, hinner⟩ := hmore.cut_arguments
  obtain ⟨typeText, hcolon, -, htext⟩ := hafter.next_sign
  obtain ⟨rest, htype, hrest⟩ := typeUse?_lexemes type htext hlexemes
  refine ⟨inner, rest, hrest, hinner, ?_⟩
  have hsplit : name.toList ++ more = c :: (first ++ more) := by
    rw [hname, List.cons_append]
  have hitem := item_eq hsplit hword hends harguments hcolon htype
  have hread := readAll_field htrivia (congrArg Prod.fst hitem)
  rw [hitem] at hread
  exact hread

theorem head?_commas_append {n : Nat} (hc : c ≠ ',') (h : lexemes.head? ≠ some (.sign c)) :
    (plain (commas n) ++ lexemes).head? ≠ some (.sign c) := by
  cases n with
  | zero => exact h
  | succ n =>
    rintro heq
    cases heq
    exact hc rfl

/-- **The arguments of a field are read back**, without their default values. -/
theorem Spelled.readAll_arguments {n : Nat} {arguments : List NotedArgument}
    (h : Spelled [] (plain (commas n) ++ arguments.flatMap NotedArgument.lexemes) cs) :
    readAll cs = arguments.map fun a => a.bare.decl := by
  -- the commas behind an argument are those before the next one, so any number may come first
  induction arguments generalizing n cs with
  | nil =>
    rw [List.flatMap_nil, List.append_nil] at h
    exact readAll_nil h.dropTrivia_nil
  | cons a arguments ih =>
    have hnext : ∀ c ≠ ',', (plain (commas a.commas) ++
        arguments.flatMap NotedArgument.lexemes).head? ≠ some (.sign c) := fun c hc =>
      head?_commas_append hc (by cases arguments <;> exact nofun)
    have hfollows : FollowsDefault (plain (commas a.commas) ++
        arguments.flatMap NotedArgument.lexemes) := by
      intro ℓ hℓ
      cases hcommas : a.commas with
      | succ n =>
        rw [hcommas] at hℓ
        cases hℓ
        exact .inl rfl
      | zero =>
        rw [hcommas] at hℓ
        cases arguments with
        | nil => cases hℓ
        | cons b arguments =>
          cases hℓ
          exact .inr ⟨_, rfl⟩
    have hsplit : plain (commas n) ++ (a :: arguments).flatMap NotedArgument.lexemes
        = plain (commas n) ++ (descriptionLexemes none ++ .word a.name :: (argumentLexemes none ++
            .sign ':' :: (plain a.type.tokens ++ (defaultLexemes a.default ++
              (plain (commas a.commas) ++ arguments.flatMap NotedArgument.lexemes))))) := by
      simp [NotedArgument.lexemes, descriptionLexemes, argumentLexemes]
    rw [hsplit] at h
    have hmark : (defaultLexemes a.default ++ (plain (commas a.commas) ++
        arguments.flatMap NotedArgument.lexemes)).head? ≠ some (.sign '!') := by
      cases a.default with
      | none => exact hnext '!' (by decide)
      | some l => simp [defaultLexemes]
    obtain ⟨inner, rest, hrest, hinner, hread⟩ := h.readAll_cons hmark
    have hafter : Spelled [] (plain (commas a.commas) ++
        arguments.flatMap NotedArgument.lexemes) (afterDefault rest) := by
      cases hdefault : a.default with
      | none =>
        rw [hdefault] at hrest
        exact hrest.no_default (hnext '=' (by decide))
      | some l =>
        rw [hdefault] at hrest
        exact hrest.after_default hfollows
    cases hinner
    rw [hread, ih hafter]
    rfl

/-- **The fields of a body are read back**, without their notes. -/
theorem Spelled.readAll_fields {n : Nat} {fields : List NotedField}
    (h : Spelled tail (plain (commas n) ++ (fields.flatMap NotedField.lexemes ++ lexemes)) cs)
    (hlexemes : ∀ c, lexemes.head? ≠ some (.sign c)) :
    ∃ m rest, Spelled tail (plain (commas m) ++ lexemes) rest ∧
      readAll cs = fields.map (fun f => f.bare.decl) ++ readAll rest := by
  induction fields generalizing n cs with
  | nil => exact ⟨n, cs, h, rfl⟩
  | cons f fields ih =>
    have hhead : ∀ c, (fields.flatMap NotedField.lexemes ++ lexemes).head? ≠ some (.sign c) := by
      intro c
      cases fields with
      | nil => exact hlexemes c
      | cons g fields =>
        cases hdescription : g.description <;>
          simp [NotedField.lexemes, hdescription, descriptionLexemes]
    have hsplit : plain (commas n) ++ ((f :: fields).flatMap NotedField.lexemes ++ lexemes)
        = plain (commas n) ++ (descriptionLexemes f.description ++ .word f.name ::
            (argumentLexemes f.arguments ++ .sign ':' :: (plain f.type.tokens ++
              (plain (commas f.commas) ++ (fields.flatMap NotedField.lexemes ++ lexemes))))) := by
      simp [NotedField.lexemes]
    rw [hsplit] at h
    obtain ⟨inner, rest, hrest, hinner, hread⟩ :=
      h.readAll_cons (head?_commas_append (by decide) (hhead '!'))
    obtain ⟨m, left, hleft, hfields⟩ :=
      ih (hrest.no_default (head?_commas_append (by decide) (hhead '=')))
    refine ⟨m, left, hleft, ?_⟩
    rw [hread, hfields, List.map_cons, List.cons_append, FieldDef.decl, NotedField.bare]
    cases hcalled : f.arguments with
    | none =>
      rw [hcalled] at hinner
      cases hinner
      rfl
    | some arguments =>
      rw [hcalled] at hinner
      cases hinner with
      | some hbody =>
        have harguments := Spelled.readAll_arguments (n := 0) hbody
        rw [Option.map_some, Option.map_some, Option.map_some, harguments, List.map_map]
        rfl

/-- A body that shows fields and nothing else is read back. -/
theorem Spelled.readAll_body {fields : List NotedField}
    (h : Spelled [] (fields.flatMap NotedField.lexemes) cs) :
    readAll cs = fields.map fun f => f.bare.decl := by
  rw [← List.append_nil (List.flatMap _ _)] at h
  obtain ⟨m, rest, hrest, hread⟩ := Spelled.readAll_fields (n := 0) h nofun
  rw [List.append_nil] at hrest
  rw [hread, readAll_nil hrest.dropTrivia_nil, List.append_nil]

end SchemaSyntax

end GraphWalk
