import GraphWalk.Proofs.Schema.Notes
import GraphWalk.Proofs.Text.Runs

/-!
# Steps of the scanner of fields

The scanner of fields goes through a text character by character.  Each of its steps takes
one piece away from the front: a name, a quoted text, a type, or what stands between two
fields.  On a text that shows lexemes a step ends where the lexemes that it reads end.

## Main definitions

* `TypeExpr.use` — a written type as it is read.

## Main results

* `spanQuoted_eq` — a quoted text, whatever stands in it.
* `typeUse?_lexemes` — **a type**, whatever its brackets and exclamation marks.
* `Spelled.dropTrivia_field` — **what stands between two fields**, up to the name of the next.
-/

namespace GraphWalk

namespace SchemaSyntax

open Text FieldDecl

variable {lexemes : List Lexeme} {cs rest tail : List Char} {c : Char}
variable {name : String}

/-! ### Single steps of the scanner -/

/-- Everything before a character is a run of other characters. -/
theorem span_until {run : List Char} (hrun : ∀ d ∈ run, d ≠ c) (rest : List Char) :
    (run ++ c :: rest).takeWhile (· != c) = run ∧
      (run ++ c :: rest).dropWhile (· != c) = c :: rest := by
  refine span_eq (fun d hd => bne_iff_ne.2 (hrun d hd)) ?_
  rintro d hd
  cases hd
  exact bne_self_eq_false _

theorem spanName_word (hword : IsWord name) (hends : Ends rest) :
    spanName (name.toList ++ rest) = (name.toList, rest) := by
  obtain ⟨htake, hdrop⟩ := span_eq (fun c hc => (isWord_of_isAsciiWord (hword.2 c hc)).2)
    fun c hc => (hends c hc).2
  rw [spanName, htake, hdrop]

/-- A quoted text ends at its closing quote. -/
theorem spanQuoted_eq {content : List Char} (h : isQuotable content = true) (rest : List Char) :
    spanQuoted (content ++ '"' :: rest) = (content ++ ['"'], rest) := by
  fun_induction isQuotable content with
  | case1 => rfl
  | case2 => cases h
  | case3 c cs ih =>
    rw [List.cons_append, List.cons_append, spanQuoted, ih h]
    rfl
  | case4 c cs hlone hescape ih =>
    obtain ⟨hc, hcs⟩ := Bool.and_eq_true_iff.1 h
    have hquote : c ≠ '"' := bne_iff_ne.1 hc
    have hbackslash : c ≠ '\\' := by
      rintro rfl
      cases cs with
      | nil => exact hlone rfl rfl
      | cons d ds => exact hescape d ds rfl rfl
    have hplain : spanQuoted (c :: (cs ++ '"' :: rest))
        = (c :: (spanQuoted (cs ++ '"' :: rest)).1, (spanQuoted (cs ++ '"' :: rest)).2) := by
      rw [spanQuoted] <;> intros <;> contradiction
    rw [List.cons_append, hplain, ih hcs]
    rfl

/-- A sign that stands next is dropped. -/
theorem Spelled.dropChar_sign (h : Spelled tail (.sign c :: lexemes) cs) :
    Spelled tail lexemes (dropChar c (dropBlanks cs)) := by
  obtain ⟨rest, hnext, -, hrest⟩ := h.next_sign
  rw [hnext, dropChar, if_pos rfl]
  exact hrest

/-- Where another lexeme stands next nothing is dropped. -/
theorem Spelled.dropChar_other (h : Spelled tail lexemes cs) (hc : c ∈ signs)
    (hlexemes : lexemes.head? ≠ some (.sign c)) :
    Spelled tail lexemes (dropChar c (dropBlanks cs)) := by
  have hhead := h.head_ne hc hlexemes
  have hnext := h.without_blanks
  cases hcs : dropBlanks cs with
  | nil =>
    rw [hcs] at hnext
    exact hnext
  | cons d ds =>
    rw [hcs] at hhead hnext
    rw [dropChar, if_neg (Option.some_inj.not.1 hhead)]
    exact hnext

/-! ### Types -/

/-- A written type as it is read. -/
def TypeExpr.use (type : TypeExpr) : TypeUse := ⟨type.name, type.isList⟩

/-- An exclamation mark is passed over. -/
theorem Spelled.dropChar_mark {required : Bool}
    (h : Spelled tail (plain (TypeExpr.mark required) ++ lexemes) cs)
    (hlexemes : lexemes.head? ≠ some (.sign '!')) :
    Spelled tail lexemes (dropChar '!' (dropBlanks cs)) := by
  cases required with
  | true => exact h.dropChar_sign
  | false => exact h.dropChar_other (by decide) hlexemes

theorem typeUse?_bracket {inner : List Char} {type : TypeUse}
    (hopen : dropBlanks cs = '[' :: inner) (hinner : typeUse? inner = some (type, rest)) :
    typeUse? cs = some ({ type with isList := true },
      dropChar '!' (dropBlanks (dropChar ']' (dropBlanks rest)))) := by
  rw [typeUse?]
  split
  · next inner' hopen' =>
    rw [hopen] at hopen'
    cases hopen'
    rw [hinner]
  · next hnot => exact absurd hopen (hnot _)

theorem typeUse?_name (hnext : dropBlanks cs = name.toList ++ rest) (hword : IsWord name)
    (hends : Ends rest) :
    typeUse? cs = some ({ name := name }, dropChar '!' (dropBlanks rest)) := by
  have hfirst : ∀ inner, dropBlanks cs ≠ '[' :: inner := by
    intro inner hopen
    obtain ⟨c, more, hname, hc⟩ := hword.exists_cons
    rw [hnext, hname, List.cons_append, List.cons.injEq] at hopen
    rw [hopen.1] at hc
    exact absurd hc (by decide)
  rw [typeUse?]
  split
  · next inner hopen => exact absurd hopen (hfirst inner)
  · rw [hnext, spanName_word hword hends]
    dsimp only
    rw [if_neg (List.isEmpty_iff.not.2 hword.1), String.ofList_toList]

/-- **A type is read back**, whatever its brackets and exclamation marks, up to where it ends. -/
theorem typeUse?_lexemes (type : TypeExpr) (h : Spelled tail (plain type.tokens ++ lexemes) cs)
    (hlexemes : lexemes.head? ≠ some (.sign '!')) :
    ∃ rest, typeUse? cs = some (type.use, rest) ∧ Spelled tail lexemes rest := by
  induction type generalizing cs lexemes with
  | named name required =>
    obtain ⟨rest, hnext, hword, hends, hrest⟩ := h.next_word
    exact ⟨_, typeUse?_name hnext hword hends, hrest.dropChar_mark hlexemes⟩
  | list inner required ih =>
    simp only [TypeExpr.tokens, plain_cons, plain_append, lexeme_sign, List.cons_append,
      List.append_assoc] at h
    obtain ⟨body, hopen, -, hbody⟩ := h.next_sign
    obtain ⟨rest, hinner, hrest⟩ := ih hbody nofun
    exact ⟨_, typeUse?_bracket hopen hinner, hrest.dropChar_sign.dropChar_mark hlexemes⟩

/-! ### Between fields -/

theorem dropTrivia_gap {gap : List Char} (hgap : IsGap gap) (cs : List Char) :
    dropTrivia (gap ++ cs) = dropTrivia cs := by
  induction gap with
  | nil => rfl
  | cons c gap ih =>
    obtain ⟨hc, hgap⟩ := List.forall_mem_cons.1 hgap
    rw [List.cons_append, dropTrivia, hc, Bool.true_or, Bool.true_or, if_pos rfl]
    exact ih hgap

theorem dropTrivia_comma (cs : List Char) : dropTrivia (',' :: cs) = dropTrivia cs := by
  rw [dropTrivia, if_pos (by decide)]

theorem dropTrivia_quote (cs : List Char) :
    dropTrivia ('"' :: cs) = dropTrivia (afterQuoted cs) := by
  rw [dropTrivia, if_neg (by decide), if_pos rfl]

theorem dropTrivia_word (hword : IsWord name) (cs : List Char) :
    dropTrivia (name.toList ++ cs) = name.toList ++ cs := by
  obtain ⟨c, more, hname, hc⟩ := hword.exists_cons
  have hother : c ≠ ',' ∧ c ≠ '|' ∧ c ≠ '"' := by
    refine ⟨?_, ?_, ?_⟩ <;> rintro rfl <;> exact absurd hc (by decide)
  rw [hname, List.cons_append, dropTrivia, if_neg, if_neg hother.2.2]
  simp only [isBlank_of_isAsciiWord hc, hother, beq_iff_eq, Bool.or_eq_true, Bool.false_eq_true,
    or_self, not_false_eq_true]

/-- The commas before the next field are passed over. -/
theorem Spelled.dropTrivia_commas {n : Nat} (h : Spelled tail (plain (commas n) ++ lexemes) cs) :
    ∃ rest, dropTrivia cs = dropTrivia rest ∧ Spelled tail lexemes rest := by
  induction n generalizing cs with
  | zero => exact ⟨cs, rfl, h⟩
  | succ n ih =>
    cases h with
    | cons blank _ _ hrest =>
      obtain ⟨rest, hdrop, hrest⟩ := ih hrest
      refine ⟨rest, ?_, hrest⟩
      rw [dropTrivia_gap blank, ← hdrop]
      exact dropTrivia_comma _

/-- The description of the next field is passed over. -/
theorem Spelled.dropTrivia_description {description : Option (List Char)}
    (h : Spelled tail (descriptionLexemes description ++ lexemes) cs) :
    ∃ rest, dropTrivia cs = dropTrivia rest ∧ Spelled tail lexemes rest := by
  cases description with
  | none => exact ⟨cs, rfl, h⟩
  | some content =>
    cases h with
    | @cons gap cs _ _ blank valid _ hrest =>
      refine ⟨cs, ?_, hrest⟩
      rw [dropTrivia_gap blank, Lexeme.chars_quoted_append, dropTrivia_quote, afterQuoted,
        spanQuoted_eq valid]

/-- Behind the last field nothing is left. -/
theorem Spelled.dropTrivia_nil {n : Nat} (h : Spelled tail (plain (commas n)) cs) :
    dropTrivia cs = [] := by
  rw [← List.append_nil (plain _)] at h
  obtain ⟨rest, hdrop, hrest⟩ := h.dropTrivia_commas
  cases hrest with
  | nil blank isTail =>
    rw [hdrop, dropTrivia_gap blank]
    rcases isTail with rfl | ⟨content, rfl, hopen⟩
    · rw [dropTrivia]
    · rw [dropTrivia_quote, hopen, dropTrivia]

/-- The name of the next field. -/
theorem Spelled.dropTrivia_name (h : Spelled tail (.word name :: lexemes) cs) :
    ∃ rest, dropTrivia cs = name.toList ++ rest ∧ IsWord name ∧ Ends rest ∧
      Spelled tail lexemes rest := by
  cases h with
  | cons blank valid ends rest =>
    refine ⟨_, ?_, valid, rest.ends ends, rest⟩
    rw [dropTrivia_gap blank]
    exact dropTrivia_word valid _

/-- **What stands between two fields**, up to the name of the next. -/
theorem Spelled.dropTrivia_field {n : Nat} {description : Option (List Char)}
    (h : Spelled tail (plain (commas n) ++
      (descriptionLexemes description ++ .word name :: lexemes)) cs) :
    ∃ c first rest, dropTrivia cs = c :: (first ++ rest) ∧ name.toList = c :: first ∧
      IsWord name ∧ Ends rest ∧ Spelled tail lexemes rest := by
  obtain ⟨behindCommas, hcommas, hdescribed⟩ := h.dropTrivia_commas
  obtain ⟨bare, hdescription, hbare⟩ := hdescribed.dropTrivia_description
  obtain ⟨rest, hnext, hword, hends, hrest⟩ := hbare.dropTrivia_name
  obtain ⟨c, first, hname, -⟩ := hword.exists_cons
  rw [hname, List.cons_append] at hnext
  exact ⟨c, first, rest, hcommas.trans (hdescription.trans hnext), hname, hword, hends, hrest⟩

end SchemaSyntax

end GraphWalk
