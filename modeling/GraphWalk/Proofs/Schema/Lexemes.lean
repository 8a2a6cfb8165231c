import GraphWalk.Proofs.Schema.Tokens

/-!
# Lexemes of a schema text

Beside words and signs a schema text may have numerals and quoted texts: a numeral in a
default value, a quoted text there or as the description of a field.  A quoted text is
taken as it stands between its quotes, so it may hold anything, blanks and signs as well.

## Main definitions

* `Lexeme` — a word, a sign, a numeral or a quoted text.
* `IsTail` — nothing more, or a quoted text that is never closed.
* `Spelled` — a text that shows some lexemes.
* `quotedTexts` — the quoted texts among some lexemes.
* `spell` — lexemes with a blank before each.

## Main results

* `Spelled.next` — the next lexeme.
* `Spelled.cases_mem` — what a text is made of.
* `Spelled.cut_at` — **a text may be cut at the first sign of its kind.**
* `spelled_spell` — whatever can be written is.
* `spelled_plain_iff` — without numerals and quoted texts the lexemes are tokens.
-/

namespace GraphWalk

namespace SchemaSyntax

open Text

/-- A part of a schema text. -/
inductive Lexeme
  /-- A word. -/
  | word (name : String)
  /-- A sign of one character. -/
  | sign (c : Char)
  /-- A number. -/
  | numeral (digits : List Char)
  /-- A quoted text: what stands between its quotes. -/
  | quoted (content : List Char)
  deriving DecidableEq, Repr

/-- A token as a lexeme. -/
def Token.lexeme : Token → Lexeme
  | word name => .word name
  | sign c => .sign c

/-- Tokens as lexemes. -/
def plain (tokens : List Token) : List Lexeme := tokens.map Token.lexeme

/-- The character may stand in a number. -/
def isNumeral (c : Char) : Bool :=
  c.isDigit || ['.', '+', '-', 'e', 'E'].contains c

/-- No quote stands in the text unless it is behind a backslash, and no backslash is left over. -/
def isQuotable : List Char → Bool
  | [] => true
  | ['\\'] => false
  | '\\' :: _ :: cs => isQuotable cs
  | c :: cs => c != '"' && isQuotable cs

namespace Lexeme

/-- The characters of a lexeme. -/
def chars : Lexeme → List Char
  | word name => name.toList
  | sign c => [c]
  | numeral digits => digits
  | quoted content => '"' :: (content ++ ['"'])

/-- The lexeme can be written. -/
def Valid : Lexeme → Prop
  | word name => IsWord name
  | sign c => c ∈ signs
  | numeral digits => digits ≠ [] ∧ ∀ c ∈ digits, isNumeral c = true
  | quoted content => isQuotable content = true

/-- The lexeme does not run on into a character behind it. -/
def EndsAt : Lexeme → Char → Prop
  | word _, c => isAsciiWord c = false
  | numeral _, c => isAsciiWord c = false ∧ isNumeral c = false
  | quoted _, c => c ≠ '"'
  | sign _, _ => True

instance : (ℓ : Lexeme) → Decidable ℓ.Valid
  | word name => inferInstanceAs (Decidable (IsWord name))
  | sign c => inferInstanceAs (Decidable (c ∈ signs))
  | numeral digits =>
    decidable_of_iff (digits ≠ [] ∧ digits.all isNumeral = true)
      (and_congr_right' List.all_eq_true)
  | quoted content => inferInstanceAs (Decidable (isQuotable content = true))

instance (c : Char) : (ℓ : Lexeme) → Decidable (ℓ.EndsAt c)
  | word _ => inferInstanceAs (Decidable (isAsciiWord c = false))
  | numeral _ => inferInstanceAs (Decidable (isAsciiWord c = false ∧ isNumeral c = false))
  | quoted _ => inferInstanceAs (Decidable (c ≠ '"'))
  | sign _ => inferInstanceAs (Decidable True)

end Lexeme

/-- Nothing, or a quoted text that is never closed. -/
def IsTail (tail : List Char) : Prop :=
  tail = [] ∨ ∃ content, tail = '"' :: content ∧ FieldDecl.afterQuoted content = []

/-- A text shows some lexemes and ends in a tail: blanks may stand before each lexeme and behind the
last, and none runs on into what follows it. -/
inductive Spelled (tail : List Char) : List Lexeme → List Char → Prop
  /-- The end. -/
  | nil {gap : List Char} (blank : IsGap gap) (isTail : IsTail tail) : Spelled tail [] (gap ++ tail)
  /-- A lexeme. -/
  | cons {gap cs : List Char} {ℓ : Lexeme} {lexemes : List Lexeme} (blank : IsGap gap)
      (valid : ℓ.Valid) (ends : ∀ c ∈ cs.head?, ℓ.EndsAt c) (rest : Spelled tail lexemes cs) :
      Spelled tail (ℓ :: lexemes) (gap ++ (ℓ.chars ++ cs))

variable {lexemes more : List Lexeme} {ℓ : Lexeme} {cs gap tail : List Char} {c : Char}

/-- The quoted texts among some lexemes. -/
def quotedTexts (lexemes : List Lexeme) : List (List Char) :=
  lexemes.filterMap fun ℓ =>
    match ℓ with
    | .quoted content => some content
    | _ => none

theorem mem_quotedTexts {content : List Char} :
    content ∈ quotedTexts lexemes ↔ .quoted content ∈ lexemes := by
  rw [quotedTexts, List.mem_filterMap]
  constructor
  · rintro ⟨ℓ, hℓ, heq⟩
    cases ℓ <;> cases heq
    exact hℓ
  · exact fun hmem => ⟨_, hmem, rfl⟩

/-! ### Characters -/

/-- A numeral is made of digits, of the letter of an exponent, and of three signs. -/
theorem isNumeral_cases (h : isNumeral c = true) : isAsciiWord c = true ∨ c ∈ ['.', '+', '-'] := by
  simp only [isNumeral, Bool.or_eq_true, List.contains_iff_mem, List.mem_cons, List.not_mem_nil,
    or_false] at h
  rcases h with hdigit | rfl | rfl | rfl | rfl | rfl
  · refine .inl ?_
    rw [isAsciiWord, Char.isAlphanum, hdigit, Bool.or_true, Bool.true_or]
  all_goals decide

/-- The signs of a numeral belong to no word, and are neither blanks nor signs. -/
theorem of_mem_numeralSigns (h : c ∈ ['.', '+', '-']) :
    Text.isWord c = false ∧ isName c = false ∧ isBlank c = false ∧ c ∉ signs := by
  simp only [List.mem_cons, List.not_mem_nil, or_false] at h
  rcases h with rfl | rfl | rfl <;> decide +kernel

theorem isBlank_of_isNumeral (h : isNumeral c = true) : isBlank c = false := by
  rcases isNumeral_cases h with hword | hsign
  · exact isBlank_of_isAsciiWord hword
  · exact (of_mem_numeralSigns hsign).2.2.1

/-- A quote belongs to no word, and is no blank. -/
theorem not_isWord_quote :
    Text.isWord '"' = false ∧ isName '"' = false ∧ isBlank '"' = false := by
  decide +kernel

/-- A lexeme has a first character, which is no blank.  If it does not belong to a word, it does not
belong to a name either. -/
theorem Lexeme.Valid.exists_cons (h : ℓ.Valid) :
    ∃ c rest, ℓ.chars = c :: rest ∧ isBlank c = false ∧
      (isAsciiWord c = false → Text.isWord c = false ∧ isName c = false) := by
  cases ℓ with
  | word name =>
    obtain ⟨c, rest, hname, hc⟩ := IsWord.exists_cons h
    refine ⟨c, rest, hname, isBlank_of_isAsciiWord hc, fun hnot => ?_⟩
    rw [hc] at hnot
    cases hnot
  | sign c =>
    obtain ⟨hword, hname, hblank⟩ := not_isWord_of_mem_signs h
    exact ⟨c, [], rfl, hblank, fun _ => ⟨hword, hname⟩⟩
  | numeral digits =>
    obtain ⟨c, rest, rfl⟩ := List.exists_cons_of_ne_nil h.1
    have hc := h.2 c List.mem_cons_self
    refine ⟨c, rest, rfl, isBlank_of_isNumeral hc, fun hnot => ?_⟩
    rcases isNumeral_cases hc with hword | hsign
    · rw [hword] at hnot
      cases hnot
    · exact ⟨(of_mem_numeralSigns hsign).1, (of_mem_numeralSigns hsign).2.1⟩
  | quoted content =>
    obtain ⟨hword, hname, hblank⟩ := not_isWord_quote
    exact ⟨'"', content ++ ['"'], rfl, hblank, fun _ => ⟨hword, hname⟩⟩

theorem Lexeme.chars_quoted_append (content cs : List Char) :
    (Lexeme.quoted content).chars ++ cs = '"' :: (content ++ '"' :: cs) := by
  simp [Lexeme.chars]

/-! ### The next lexeme -/

theorem Lexeme.Valid.dropBlanks (h : ℓ.Valid) (cs : List Char) :
    Text.dropBlanks (ℓ.chars ++ cs) = ℓ.chars ++ cs := by
  obtain ⟨c, rest, hchars, hblank, -⟩ := h.exists_cons
  rw [hchars, List.cons_append]
  exact dropBlanks_cons_of_not_blank hblank _

/-- **The next lexeme**, once the blanks before it are gone. -/
theorem Spelled.next (h : Spelled tail (ℓ :: lexemes) cs) :
    ∃ rest, Text.dropBlanks cs = ℓ.chars ++ rest ∧ ℓ.Valid ∧ (∀ c ∈ rest.head?, ℓ.EndsAt c) ∧
      Spelled tail lexemes rest := by
  cases h with
  | cons blank valid ends rest =>
    refine ⟨_, ?_, valid, ends, rest⟩
    rw [dropBlanks_gap blank, valid.dropBlanks]

/-- A sign is next. -/
theorem Spelled.next_sign (h : Spelled tail (.sign c :: lexemes) cs) :
    ∃ rest, Text.dropBlanks cs = c :: rest ∧ c ∈ signs ∧ Spelled tail lexemes rest := by
  obtain ⟨rest, hnext, hvalid, -, hrest⟩ := h.next
  exact ⟨rest, hnext, hvalid, hrest⟩

theorem IsTail.dropBlanks (h : IsTail tail) : Text.dropBlanks tail = tail := by
  rcases h with rfl | ⟨content, rfl, -⟩
  · rfl
  · exact dropBlanks_cons_of_not_blank not_isWord_quote.2.2 content

/-- Behind the last lexeme the tail is left. -/
theorem Spelled.dropBlanks_nil (h : Spelled tail [] cs) : Text.dropBlanks cs = tail := by
  cases h with
  | nil blank isTail => rw [dropBlanks_gap blank, isTail.dropBlanks]

/-- Blanks before the first lexeme make no difference. -/
theorem Spelled.without_blanks (h : Spelled tail lexemes cs) :
    Spelled tail lexemes (Text.dropBlanks cs) := by
  cases h with
  | nil blank isTail =>
    rw [dropBlanks_gap blank, isTail.dropBlanks]
    have hgap : IsGap [] := nofun
    exact .nil hgap isTail
  | @cons gap cs ℓ lexemes blank valid ends rest =>
    have hbare : Spelled tail (ℓ :: lexemes) ([] ++ (ℓ.chars ++ cs)) := .cons nofun valid ends rest
    rw [dropBlanks_gap blank, valid.dropBlanks]
    exact hbare

/-- Where no word goes on a word ends. -/
theorem Spelled.ends (h : Spelled tail lexemes cs)
    (hends : ∀ c ∈ cs.head?, isAsciiWord c = false) : Ends cs := by
  have hgap : ∀ {gap cs : List Char}, IsGap gap → gap ≠ [] → Ends (gap ++ cs) := by
    intro gap cs hblank hne c hc
    obtain ⟨d, gap, rfl⟩ := List.exists_cons_of_ne_nil hne
    cases hc
    exact not_isWord_of_isBlank (hblank _ List.mem_cons_self)
  cases h with
  | @nil gap blank isTail =>
    cases gap with
    | cons d gap => exact hgap blank (List.cons_ne_nil d gap)
    | nil =>
      rcases isTail with rfl | ⟨content, rfl, -⟩
      · exact nofun
      · rintro c hc
        cases hc
        exact ⟨not_isWord_quote.1, not_isWord_quote.2.1⟩
  | @cons gap cs ℓ lexemes blank valid _ _ =>
    cases gap with
    | cons d gap => exact hgap blank (List.cons_ne_nil d gap)
    | nil =>
      obtain ⟨d, rest, hchars, -, hword⟩ := valid.exists_cons
      intro c hc
      rw [List.nil_append, hchars] at hc hends
      cases hc
      exact hword (hends _ rfl)

/-- A word is next. -/
theorem Spelled.next_word {name : String} (h : Spelled tail (.word name :: lexemes) cs) :
    ∃ rest, Text.dropBlanks cs = name.toList ++ rest ∧ IsWord name ∧ Ends rest ∧
      Spelled tail lexemes rest := by
  obtain ⟨rest, hnext, hvalid, hends, hrest⟩ := h.next
  exact ⟨rest, hnext, hvalid, hrest.ends hends, hrest⟩

/-- A text that begins with a sign shows it as its first lexeme. -/
theorem Spelled.head_ne (h : Spelled tail lexemes cs) (hc : c ∈ signs)
    (hlexemes : lexemes.head? ≠ some (.sign c)) : (Text.dropBlanks cs).head? ≠ some c := by
  have hquote : '"' ∉ signs := by decide
  cases lexemes with
  | nil =>
    have htail : IsTail tail := by
      cases h
      assumption
    rw [h.dropBlanks_nil]
    rcases htail with rfl | ⟨content, rfl, -⟩
    · exact nofun
    · rintro heq
      cases heq
      exact hquote hc
  | cons ℓ lexemes =>
    obtain ⟨rest, hnext, hvalid, -, -⟩ := h.next
    rw [hnext]
    cases ℓ with
    | word name =>
      obtain ⟨d, more, hname, hd⟩ := IsWord.exists_cons hvalid
      rw [Lexeme.chars, hname]
      rintro heq
      cases heq
      exact not_mem_signs_of_isAsciiWord hd hc
    | sign d =>
      rintro heq
      cases heq
      exact hlexemes rfl
    | numeral digits =>
      obtain ⟨d, more, rfl⟩ := List.exists_cons_of_ne_nil hvalid.1
      rintro heq
      cases heq
      rcases isNumeral_cases (hvalid.2 _ List.mem_cons_self) with hd | hd
      · exact not_mem_signs_of_isAsciiWord hd hc
      · exact (of_mem_numeralSigns hd).2.2.2 hc
    | quoted content =>
      rintro heq
      cases heq
      exact hquote hc

/-! ### Cutting a text -/

/-- Every character is a blank or belongs to a lexeme. -/
theorem Spelled.cases_mem (h : Spelled [] lexemes cs) (hc : c ∈ cs) :
    isBlank c = true ∨ ∃ ℓ ∈ lexemes, c ∈ ℓ.chars := by
  induction h with
  | nil blank _ =>
    rw [List.append_nil] at hc
    exact .inl (blank c hc)
  | @cons gap cs ℓ lexemes blank _ _ _ ih =>
    rcases List.mem_append.1 hc with hc | hc
    · exact .inl (blank c hc)
    rcases List.mem_append.1 hc with hc | hc
    · exact .inr ⟨ℓ, List.mem_cons_self, hc⟩
    · exact (ih hc).imp_right fun ⟨ℓ', hmem, hc'⟩ => ⟨ℓ', List.mem_cons_of_mem ℓ hmem, hc'⟩

/-- A text may be cut at any sign. -/
theorem Spelled.split (h : Spelled tail (lexemes ++ .sign c :: more) cs) :
    ∃ inner rest, cs = inner ++ c :: rest ∧ Spelled [] lexemes inner ∧ Spelled tail more rest := by
  induction lexemes generalizing cs with
  | nil =>
    cases h with
    | @cons gap _ _ _ blank _ _ rest =>
      have hgap : Spelled [] [] (gap ++ []) := .nil blank (.inl rfl)
      rw [List.append_nil] at hgap
      exact ⟨gap, _, rfl, hgap, rest⟩
  | cons ℓ lexemes ih =>
    cases h with
    | @cons gap cs _ _ blank valid ends rest =>
      obtain ⟨inner, after, rfl, hinner, hafter⟩ := ih rest
      refine ⟨gap ++ (ℓ.chars ++ inner), after, by simp, .cons blank valid ?_ hinner, hafter⟩
      -- what follows the lexeme is the same, unless it is the sign itself
      intro d hd
      cases inner with
      | nil => cases hd
      | cons first inner => exact ends d hd

theorem Spelled.valid (h : Spelled tail lexemes cs) : ∀ ℓ ∈ lexemes, ℓ.Valid := by
  induction h with
  | nil => exact nofun
  | cons _ valid _ _ ih => exact List.forall_mem_cons.2 ⟨valid, ih⟩

/-- The lexeme is not the sign, and has it not in it if it is quoted. -/
def Lexeme.Lacks (c : Char) : Lexeme → Prop
  | sign d => c ≠ d
  | quoted content => c ∉ content
  | _ => True

instance (c : Char) : (ℓ : Lexeme) → Decidable (ℓ.Lacks c)
  | .word _ => inferInstanceAs (Decidable True)
  | .sign d => inferInstanceAs (Decidable (c ≠ d))
  | .numeral _ => inferInstanceAs (Decidable True)
  | .quoted content => inferInstanceAs (Decidable (c ∉ content))

/-- The sign stands nowhere among the lexemes, not in a quoted text either. -/
def Lacks (c : Char) (lexemes : List Lexeme) : Prop := ∀ ℓ ∈ lexemes, ℓ.Lacks c

instance (c : Char) (lexemes : List Lexeme) : Decidable (Lacks c lexemes) :=
  inferInstanceAs (Decidable (∀ ℓ ∈ lexemes, ℓ.Lacks c))

theorem lacks_cons : Lacks c (ℓ :: lexemes) ↔ ℓ.Lacks c ∧ Lacks c lexemes := List.forall_mem_cons

theorem lacks_append : Lacks c (lexemes ++ more) ↔ Lacks c lexemes ∧ Lacks c more :=
  List.forall_mem_append

theorem lacks_flatMap {α : Type} {items : List α} {lexemesOf : α → List Lexeme} :
    Lacks c (items.flatMap lexemesOf) ↔ ∀ item ∈ items, Lacks c (lexemesOf item) :=
  List.forall_mem_flatMap

/-- No token is a quoted text. -/
theorem quoted_not_mem_plain (content : List Char) (tokens : List Token) :
    .quoted content ∉ plain tokens := by
  intro hmem
  obtain ⟨token, -, heq⟩ := List.mem_map.1 hmem
  cases token <;> cases heq

theorem lacks_plain {tokens : List Token} (h : .sign c ∉ tokens) : Lacks c (plain tokens) := by
  intro ℓ hℓ
  obtain ⟨token, htoken, rfl⟩ := List.mem_map.1 hℓ
  cases token with
  | word name => exact trivial
  | sign d =>
    rintro rfl
    exact h htoken

/-- A sign stands in no other lexeme, unless that is quoted. -/
theorem Lexeme.Valid.not_mem_chars (h : ℓ.Valid) (hc : c ∈ signs) (hlacks : ℓ.Lacks c) :
    c ∉ ℓ.chars := by
  intro hmem
  cases ℓ with
  | word name => exact not_mem_signs_of_isAsciiWord (h.2 c hmem) hc
  | sign d => exact hlacks (List.mem_singleton.1 hmem)
  | numeral digits =>
    rcases isNumeral_cases (h.2 c hmem) with hword | hnumeral
    · exact not_mem_signs_of_isAsciiWord hword hc
    · exact (of_mem_numeralSigns hnumeral).2.2.2 hc
  | quoted content =>
    have hquote : '"' ∉ signs := by decide
    simp only [chars, List.mem_cons, List.mem_append, List.not_mem_nil, or_false] at hmem
    rcases hmem with rfl | hmem | rfl
    · exact hquote hc
    · exact hlacks hmem
    · exact hquote hc

/-- A character that belongs neither to words nor to numbers and is no sign stands in quoted texts
only. -/
theorem Lexeme.Valid.not_mem_of_plain (h : ℓ.Valid) (hword : isAsciiWord c = false)
    (hnumeral : isNumeral c = false) (hsign : c ∉ signs) (hplain : ∀ content, ℓ ≠ .quoted content) :
    c ∉ ℓ.chars := by
  intro hmem
  cases ℓ with
  | word name =>
    rw [h.2 c hmem] at hword
    cases hword
  | sign d =>
    cases List.mem_singleton.1 hmem
    exact hsign h
  | numeral digits =>
    rw [h.2 c hmem] at hnumeral
    cases hnumeral
  | quoted content => exact hplain content rfl

/-- What the lexemes lack is no character of their text. -/
theorem Spelled.not_mem (h : Spelled [] lexemes cs) (hc : c ∈ signs) (hlacks : Lacks c lexemes) :
    c ∉ cs := by
  intro hmem
  rcases h.cases_mem hmem with hblank | ⟨ℓ, hℓ, hchars⟩
  · rw [(not_isWord_of_mem_signs hc).2.2] at hblank
    cases hblank
  · exact (h.valid ℓ hℓ).not_mem_chars hc (hlacks ℓ hℓ) hchars

/-- **A text may be cut at the first sign of its kind.** -/
theorem Spelled.cut_at (h : Spelled tail (lexemes ++ .sign c :: more) cs) (hc : c ∈ signs)
    (hlacks : Lacks c lexemes) :
    ∃ inner rest, cs = inner ++ c :: rest ∧ (∀ d ∈ inner, d ≠ c) ∧ Spelled [] lexemes inner ∧
      Spelled tail more rest := by
  obtain ⟨inner, rest, hcs, hinner, hrest⟩ := h.split
  refine ⟨inner, rest, hcs, ?_, hinner, hrest⟩
  rintro d hd rfl
  exact hinner.not_mem hc hlacks hd

/-! ### Writing lexemes -/

/-- Lexemes as they may be written: with a blank before each. -/
def spell (lexemes : List Lexeme) : List Char := lexemes.flatMap fun ℓ => ' ' :: ℓ.chars

/-- **Whatever can be written is**, with a blank before each lexeme. -/
theorem spelled_spell (h : ∀ ℓ ∈ lexemes, ℓ.Valid) : Spelled [] lexemes (spell lexemes) := by
  induction lexemes with
  | nil =>
    have hgap : IsGap [] := nofun
    exact .nil hgap (.inl rfl)
  | cons ℓ lexemes ih =>
    obtain ⟨hvalid, hlexemes⟩ := List.forall_mem_cons.1 h
    have hends : ∀ c ∈ (spell lexemes).head?, ℓ.EndsAt c := by
      intro c hc
      have hblank : c = ' ' := by
        cases lexemes with
        | nil => cases hc
        | cons next lexemes => exact (Option.some.inj hc).symm
      rw [hblank]
      cases ℓ with
      | word name => exact (by decide : isAsciiWord ' ' = false)
      | numeral digits => exact (by decide : isAsciiWord ' ' = false ∧ isNumeral ' ' = false)
      | quoted content => exact (by decide : ' ' ≠ '"')
      | sign d => trivial
    have hgap : IsGap [' '] := by
      intro c hc
      cases List.mem_singleton.1 hc
      decide
    exact .cons hgap hvalid hends (ih hlexemes)

/-! ### Telling whether a text shows some lexemes -/

theorem spelled_nil_iff : Spelled [] [] cs ↔ IsGap cs := by
  constructor
  · intro h
    cases h with
    | nil blank _ =>
      rw [List.append_nil]
      exact blank
  · intro blank
    have h : Spelled [] [] (cs ++ []) := .nil blank (.inl rfl)
    rwa [List.append_nil] at h

theorem spelled_cons_iff {rest : List Char} (hnext : Text.dropBlanks cs = ℓ.chars ++ rest) :
    Spelled tail (ℓ :: lexemes) cs ↔
      ℓ.Valid ∧ (rest.head?.all fun c => ℓ.EndsAt c) = true ∧ Spelled tail lexemes rest := by
  have hhead : (rest.head?.all fun c => ℓ.EndsAt c) = true ↔ ∀ c ∈ rest.head?, ℓ.EndsAt c := by
    cases rest <;> simp
  rw [hhead]
  constructor
  · intro h
    obtain ⟨after, hafter, hvalid, hends, hrest⟩ := h.next
    rw [hnext, List.append_cancel_left_eq] at hafter
    exact hafter ▸ ⟨hvalid, hends, hrest⟩
  · rintro ⟨hvalid, hends, hrest⟩
    obtain ⟨gap, hgap, hcs⟩ := append_dropBlanks cs
    rw [hcs, hnext]
    exact .cons hgap hvalid hends hrest

/-- The next lexeme of a text is told from what it begins with. -/
instance decidableSpelled :
    (lexemes : List Lexeme) → (cs : List Char) → Decidable (Spelled [] lexemes cs)
  | [], cs =>
    decidable_of_iff (cs.all isBlank = true) (List.all_eq_true.trans spelled_nil_iff.symm)
  | ℓ :: lexemes, cs =>
    match hafter : after? ℓ.chars (Text.dropBlanks cs) with
    | none => isFalse fun h => by
      obtain ⟨rest, hrest, -⟩ := h.next
      rw [hrest, after?_append] at hafter
      cases hafter
    | some rest =>
      have := decidableSpelled lexemes rest
      decidable_of_iff
        (ℓ.Valid ∧ (rest.head?.all fun c => ℓ.EndsAt c) = true ∧ Spelled [] lexemes rest)
        (spelled_cons_iff (after?_eq_some_iff.1 hafter)).symm

/-! ### Tokens -/

/-- **Without numerals and quoted texts the lexemes of a text are tokens.** -/
theorem spelled_plain_iff {tokens : List Token} {cs : List Char} :
    Spelled [] (plain tokens) cs ↔ Renders tokens cs := by
  constructor
  · intro h
    induction tokens generalizing cs with
    | nil =>
      cases h with
      | nil blank _ =>
        rw [List.append_nil]
        exact .nil blank
    | cons token tokens ih =>
      cases token with
      | word name =>
        cases h with
        | cons blank valid ends rest => exact .word blank valid ends (ih rest)
      | sign c =>
        cases h with
        | cons blank valid _ rest => exact .sign blank valid (ih rest)
  · intro h
    induction h with
    | @nil gap blank =>
      have hgap : Spelled [] [] (gap ++ []) := .nil blank (.inl rfl)
      rw [List.append_nil] at hgap
      exact hgap
    | sign blank sign _ ih => exact .cons (ℓ := .sign _) blank sign (fun _ _ => trivial) ih
    | word blank word ends _ ih => exact .cons (ℓ := .word _) blank word ends ih

/-- Whether a text shows some tokens is told from its lexemes. -/
instance decidableRenders (tokens : List Token) (cs : List Char) : Decidable (Renders tokens cs) :=
  decidable_of_iff _ spelled_plain_iff

@[simp] theorem plain_nil : plain [] = [] := rfl

@[simp] theorem plain_cons (token : Token) (tokens : List Token) :
    plain (token :: tokens) = token.lexeme :: plain tokens := rfl

@[simp] theorem plain_append (tokens others : List Token) :
    plain (tokens ++ others) = plain tokens ++ plain others := List.map_append

@[simp] theorem lexeme_word (name : String) : (Token.word name).lexeme = .word name := rfl

@[simp] theorem lexeme_sign (c : Char) : (Token.sign c).lexeme = .sign c := rfl

theorem plain_flatMap {α : Type} (items : List α) (tokensOf : α → List Token) :
    plain (items.flatMap tokensOf) = items.flatMap fun item => plain (tokensOf item) :=
  List.map_flatMap

end SchemaSyntax

end GraphWalk
