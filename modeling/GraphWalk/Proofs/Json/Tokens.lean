import GraphWalk.Proofs.Json.Reading
import GraphWalk.Proofs.Json.Texts

/-!
# Tokens of a JSON text

How the parts of a JSON text are written that have no parts of their own: spaces, numbers with a
fraction and an exponent or without, quoted texts with their escapes, and the names of members.
Each is read as it is written, and what is read as one is written so.

Nothing is said of what a token denotes, so there are numbers that are too large and quoted texts
with half of a surrogate pair.

## Main definitions

* `NumberLiteral.Spelled` — how a number is written.
* `Written.SpelledCodes` — how the code points of a quoted text are written.
* `Written.SpelledName` — how the name of a member is written.

## Main results

* `Written.numberLiteral?_append`, `Written.spelled_of_numberLiteral?` — **numbers.**
* `Written.stringBody?_append`, `Written.spelled_of_stringBody?` — **quoted texts.**
* `Written.memberName?_append`, `Written.spelled_of_memberName?` — the names of members.
-/

namespace GraphWalk

open QuerySyntax (IsDigits IsWhole)

/-! ### Numbers -/

namespace NumberLiteral

/-- How a fraction is written: nothing, or a point and digits. -/
inductive SpelledFraction : Option (List Char) → List Char → Prop
  /-- There is no fraction. -/
  | none : SpelledFraction none []
  /-- Digits behind a point. -/
  | point {digits : List Char} (h : IsDigits digits) : SpelledFraction (some digits) ('.' :: digits)

/-- How a power of ten is written: nothing, or a letter and a whole number, which may have a
sign. -/
inductive SpelledExponent : Option Int → List Char → Prop
  /-- There is no power of ten. -/
  | none : SpelledExponent none []
  /-- A power that is not negative. -/
  | positive {letter : Char} {sign digits : List Char} (hletter : letter ∈ ['e', 'E'])
      (hsign : sign ∈ [[], ['+']]) (h : IsDigits digits) :
      SpelledExponent (some (Text.ofDigits digits)) (letter :: (sign ++ digits))
  /-- A power behind a minus sign. -/
  | negative {letter : Char} {digits : List Char} (hletter : letter ∈ ['e', 'E'])
      (h : IsDigits digits) :
      SpelledExponent (some (-Text.ofDigits digits)) (letter :: '-' :: digits)

/-- How the sign of a number is written. -/
def signChars (negative : Bool) : List Char := if negative then ['-'] else []

/-- How a number is written. -/
inductive Spelled : NumberLiteral → List Char → Prop
  /-- A sign, a whole part, a fraction and a power of ten, of which the whole part is needed. -/
  | mk {negative : Bool} {whole : List Char} {fraction : Option (List Char)}
      {exponent : Option Int} {fractionChars exponentChars : List Char} (hwhole : IsWhole whole)
      (hfraction : SpelledFraction fraction fractionChars)
      (hexponent : SpelledExponent exponent exponentChars) :
      Spelled ⟨negative, whole, fraction, exponent⟩
        (signChars negative ++ (whole ++ (fractionChars ++ exponentChars)))

end NumberLiteral

namespace Written

/-! ### Quoted texts -/

/-- How code points are written between quotes. -/
inductive SpelledCodes : List Nat → List Char → Prop
  /-- There is none. -/
  | nil : SpelledCodes [] []
  /-- A character stands for itself, unless it is a quote, a backslash or a control. -/
  | plain {c : Char} {codes : List Nat} {cs : List Char} (hvisible : 0x20 ≤ c.toNat)
      (hquote : c ≠ '"') (hslash : c ≠ '\\') (rest : SpelledCodes codes cs) :
      SpelledCodes (c.toNat :: codes) (c :: cs)
  /-- A letter behind a backslash stands for a character. -/
  | escape {letter c : Char} {codes : List Nat} {cs : List Char} (h : escape? letter = some c)
      (rest : SpelledCodes codes cs) : SpelledCodes (c.toNat :: codes) ('\\' :: letter :: cs)
  /-- Four hexadecimal digits stand for a code point. -/
  | code {a b c d : Char} {n : Nat} {codes : List Nat} {cs : List Char}
      (h : hexWord? a b c d = some n) (rest : SpelledCodes codes cs) :
      SpelledCodes (n :: codes) ('\\' :: 'u' :: a :: b :: c :: d :: cs)

/-- Nothing but spaces. -/
def IsSpaces (cs : List Char) : Prop := ∀ c ∈ cs, isSpace c = true

/-- How the name of a member is written, up to the colon behind it. -/
inductive SpelledName : List Nat → List Char → Prop
  /-- A quoted text with spaces around it, and a colon. -/
  | mk {codes : List Nat} {before cs after : List Char} (hbefore : IsSpaces before)
      (h : SpelledCodes codes cs) (hafter : IsSpaces after) :
      SpelledName codes (before ++ '"' :: (cs ++ '"' :: (after ++ [':'])))

/-! ### Spaces -/

section Spaces

variable {gap cs rest : List Char} {token c : Char}

theorem isSpaces_nil : IsSpaces [] := nofun

theorem isSpaces_one : IsSpaces [' '] := by
  intro c hc
  rw [List.mem_singleton.1 hc]
  rfl

theorem dropSpace_gap (h : IsSpaces gap) (cs : List Char) :
    dropSpace (gap ++ cs) = dropSpace cs :=
  List.dropWhile_append_of_pos h

theorem afterToken?_gap (h : IsSpaces gap) (token : Char) (cs : List Char) :
    afterToken? token (gap ++ cs) = afterToken? token cs := by
  rw [afterToken?, afterToken?, dropSpace_gap h]

/-- A text begins with spaces, perhaps none. -/
theorem exists_gap (cs : List Char) : ∃ gap, IsSpaces gap ∧ cs = gap ++ dropSpace cs :=
  ⟨cs.takeWhile isSpace, fun _ hc => List.mem_takeWhile_imp hc,
    List.takeWhile_append_dropWhile.symm⟩

/-- What stands next, after spaces, is the character asked for. -/
theorem exists_gap_of_afterToken? (h : afterToken? token cs = some rest) :
    ∃ gap, IsSpaces gap ∧ cs = gap ++ token :: rest := by
  obtain ⟨gap, hgap, hcs⟩ := exists_gap cs
  refine ⟨gap, hgap, ?_⟩
  unfold afterToken? at h
  split at h
  · next d more hnext =>
    rw [Option.ite_none_right_eq_some, Option.some.injEq] at h
    rw [hnext, h.1, h.2] at hcs
    exact hcs
  · cases h

theorem afterToken?_token (h : IsSpaces gap) (htoken : isSpace token = false) (rest : List Char) :
    afterToken? token (gap ++ token :: rest) = some rest := by
  rw [afterToken?_gap h, afterToken?_cons htoken]

theorem afterToken?_other (h : IsSpaces gap) (hc : isSpace c = false) (hne : c ≠ token)
    (rest : List Char) : afterToken? token (gap ++ c :: rest) = none := by
  rw [afterToken?_gap h, afterToken?_cons_of_ne hc hne]

/-- Spaces are no part of a number. -/
theorem isPart_of_isSpace (h : isSpace c = true) : Number.isPart c = false := by
  simp only [isSpace, Bool.or_eq_true, beq_iff_eq] at h
  rcases h with ((rfl | rfl) | rfl) | rfl
  · rfl
  · rfl
  · rfl
  · rfl

theorem closed_gap (h : IsSpaces gap) (hrest : Number.Closed rest) :
    Number.Closed (gap ++ rest) := by
  cases gap with
  | nil => exact hrest
  | cons c gap => exact Number.closed_cons (isPart_of_isSpace (h c List.mem_cons_self)) _

end Spaces

/-! ### Numbers are read -/

section Numbers

variable {cs digits rest : List Char} {fraction : Option (List Char)} {exponent : Option Int}
  {literal : NumberLiteral}

theorem not_isDigit_of_closed (h : Number.Closed rest) : ∀ c ∈ rest.head?, c.isDigit = false := by
  intro c hc
  rw [← Bool.not_eq_true]
  intro hdigit
  have hpart := h c hc
  rw [Number.isPart_of_isDigit hdigit] at hpart
  cases hpart

theorem spanDigits_append (h : IsDigits digits) (hrest : ∀ c ∈ rest.head?, c.isDigit = false) :
    spanDigits (digits ++ rest) = (digits, rest) := by
  obtain ⟨htake, hdrop⟩ := Text.span_eq h.2 hrest
  rw [spanDigits, htake, hdrop]

theorem isEmpty_digits (h : IsDigits digits) : digits.isEmpty = false := by
  rw [← Bool.not_eq_true, List.isEmpty_iff]
  exact h.1

theorem isDigits_spanDigits (h : (spanDigits cs).1 ≠ []) : IsDigits (spanDigits cs).1 :=
  ⟨h, fun _ hc => List.mem_takeWhile_imp hc⟩

theorem spanDigits_split (cs : List Char) : cs = (spanDigits cs).1 ++ (spanDigits cs).2 :=
  List.takeWhile_append_dropWhile.symm

theorem whole?_append {whole : List Char} (h : IsWhole whole)
    (hrest : ∀ c ∈ rest.head?, c.isDigit = false) :
    whole? (whole ++ rest) = some (whole, rest) := by
  rw [whole?, spanDigits_append h.1 hrest]
  dsimp only
  rw [isEmpty_digits h.1, if_neg]
  simp only [Bool.false_or, Bool.and_eq_true, beq_iff_eq, bne_iff_ne, not_and, Decidable.not_not]
  intro hhead
  rw [h.2 hhead]
  rfl

theorem isWhole_of_whole? {whole : List Char} (h : whole? cs = some (whole, rest)) :
    IsWhole whole ∧ cs = whole ++ rest := by
  simp only [whole?, Option.ite_none_left_eq_some, Option.some.injEq, Prod.mk.injEq] at h
  obtain ⟨hwhole, rfl, rfl⟩ := h
  simp only [Bool.or_eq_true, Bool.and_eq_true, beq_iff_eq, bne_iff_ne, List.isEmpty_iff, not_or,
    not_and, Decidable.not_not] at hwhole
  refine ⟨⟨isDigits_spanDigits hwhole.1, fun hhead => ?_⟩, spanDigits_split cs⟩
  obtain ⟨c, hc⟩ := List.length_eq_one_iff.1 (hwhole.2 hhead)
  rw [hc, List.head?_cons, Option.some.injEq] at hhead
  rw [hc, hhead]

theorem fraction?_append (h : NumberLiteral.SpelledFraction fraction cs)
    (hrest : ∀ c ∈ rest.head?, c.isDigit = false ∧ c ≠ '.') :
    fraction? (cs ++ rest) = some (fraction, rest) := by
  cases h with
  | none =>
    rw [List.nil_append, fraction?]
    rintro more rfl
    exact (hrest '.' rfl).2 rfl
  | @point digits hdigits =>
    rw [List.cons_append, fraction?, spanDigits_append hdigits fun c hc => (hrest c hc).1]
    dsimp only
    rw [isEmpty_digits hdigits]
    rfl

theorem spelled_of_fraction? (h : fraction? cs = some (fraction, rest)) :
    ∃ text, NumberLiteral.SpelledFraction fraction text ∧ cs = text ++ rest := by
  unfold fraction? at h
  split at h
  · next more =>
    simp only [Option.ite_none_left_eq_some, Option.some.injEq, Prod.mk.injEq,
      List.isEmpty_iff] at h
    obtain ⟨hdigits, rfl, rfl⟩ := h
    refine ⟨'.' :: (spanDigits more).1, .point (isDigits_spanDigits hdigits), ?_⟩
    rw [List.cons_append, ← spanDigits_split]
  · cases h
    exact ⟨[], .none, rfl⟩

theorem exponentAfterMark?_append {negative : Bool} (h : IsDigits digits)
    (hsign : exponentSign cs = (negative, digits ++ rest))
    (hrest : ∀ c ∈ rest.head?, c.isDigit = false) :
    exponentAfterMark? cs
      = some (some (if negative then -(Text.ofDigits digits : Int) else Text.ofDigits digits),
          rest) := by
  rw [exponentAfterMark?, hsign]
  dsimp only
  rw [spanDigits_append h hrest]
  dsimp only
  rw [isEmpty_digits h]
  rfl

theorem exponentSign_digits (h : IsDigits digits) (rest : List Char) :
    exponentSign (digits ++ rest) = (false, digits ++ rest) := by
  obtain ⟨c, cs, rfl⟩ := List.exists_cons_of_ne_nil h.1
  have hc := h.2 c List.mem_cons_self
  rw [List.cons_append, exponentSign]
  · rintro more heq
    rw [(List.cons.inj heq).1] at hc
    cases hc
  · rintro more heq
    rw [(List.cons.inj heq).1] at hc
    cases hc

/-- A power of ten has a minus sign, or another sign, or none. -/
theorem exponentSign_cases (cs : List Char) :
    (∃ more, cs = '-' :: more ∧ exponentSign cs = (true, more)) ∨
      ∃ sign ∈ [[], ['+']], ∃ more, cs = sign ++ more ∧ exponentSign cs = (false, more) := by
  unfold exponentSign
  split
  · exact .inl ⟨_, rfl, rfl⟩
  · exact .inr ⟨['+'], by decide, _, rfl, rfl⟩
  · exact .inr ⟨[], by decide, cs, rfl, rfl⟩

theorem exponent?_mark {letter : Char} (h : letter ∈ ['e', 'E']) (cs : List Char) :
    exponent? (letter :: cs) = exponentAfterMark? cs := by
  simp only [List.mem_cons, List.not_mem_nil, or_false] at h
  rcases h with rfl | rfl
  · rfl
  · rfl

theorem exponent?_append (h : NumberLiteral.SpelledExponent exponent cs)
    (hrest : Number.Closed rest) : exponent? (cs ++ rest) = some (exponent, rest) := by
  have hdigit := not_isDigit_of_closed hrest
  cases h with
  | none =>
    rw [List.nil_append, exponent?]
    · rintro more rfl
      cases hrest 'e' rfl
    · rintro more rfl
      cases hrest 'E' rfl
  | @positive letter sign digits hletter hsign h =>
    rw [List.cons_append, exponent?_mark hletter, List.append_assoc]
    simp only [List.mem_cons, List.not_mem_nil, or_false] at hsign
    rcases hsign with rfl | rfl
    · exact exponentAfterMark?_append h (exponentSign_digits h rest) hdigit
    · have hplus : exponentSign (['+'] ++ (digits ++ rest)) = (false, digits ++ rest) := rfl
      exact exponentAfterMark?_append h hplus hdigit
  | @negative letter digits hletter h =>
    have hminus : exponentSign ('-' :: digits ++ rest) = (true, digits ++ rest) := rfl
    rw [List.cons_append, exponent?_mark hletter]
    exact exponentAfterMark?_append h hminus hdigit

theorem spelled_of_exponentAfterMark? {letter : Char} (hletter : letter ∈ ['e', 'E'])
    (h : exponentAfterMark? cs = some (exponent, rest)) :
    ∃ text, NumberLiteral.SpelledExponent exponent text ∧ letter :: cs = text ++ rest := by
  simp only [exponentAfterMark?, Option.ite_none_left_eq_some, Option.some.injEq, Prod.mk.injEq,
    List.isEmpty_iff] at h
  obtain ⟨hdigits, rfl, rfl⟩ := h
  have hall := isDigits_spanDigits hdigits
  have hsplit := spanDigits_split (exponentSign cs).2
  rcases exponentSign_cases cs with ⟨more, rfl, hsign⟩ | ⟨sign, hmem, more, rfl, hsign⟩
  · rw [hsign] at hall hsplit ⊢
    refine ⟨_, .negative hletter hall, ?_⟩
    rw [List.cons_append, List.cons_append, ← hsplit]
  · rw [hsign] at hall hsplit ⊢
    refine ⟨_, .positive hletter hmem hall, ?_⟩
    rw [List.cons_append, List.append_assoc, ← hsplit]

theorem spelled_of_exponent? (h : exponent? cs = some (exponent, rest)) :
    ∃ text, NumberLiteral.SpelledExponent exponent text ∧ cs = text ++ rest := by
  unfold exponent? at h
  split at h
  · exact spelled_of_exponentAfterMark? (by decide) h
  · exact spelled_of_exponentAfterMark? (by decide) h
  · cases h
    exact ⟨[], .none, rfl⟩

/-- A number is a numeral. -/
theorem isNumeral_of_spelled (h : literal.Spelled cs) : QuerySyntax.IsNumeral cs := by
  cases h with
  | @mk negative whole fraction exponent fractionChars exponentChars hwhole hfraction hexponent =>
    refine .mk ?_ hwhole ?_ ?_
    · cases negative <;> decide
    · cases hfraction with
      | none => exact .none
      | point h => exact .point h
    · cases hexponent with
      | none => exact .none
      | positive hletter hsign h =>
        refine .power hletter ?_ h
        simp only [List.mem_cons, List.not_mem_nil, or_false] at hsign ⊢
        exact hsign.imp_right .inl
      | @negative letter digits hletter h =>
        exact @QuerySyntax.IsExponent.power letter ['-'] digits hletter (by decide) h

/-- What follows a whole part does not go on with digits. -/
theorem head?_exponent (h : NumberLiteral.SpelledExponent exponent cs)
    (hrest : Number.Closed rest) : ∀ c ∈ (cs ++ rest).head?, c.isDigit = false ∧ c ≠ '.' := by
  have hletter : ∀ letter ∈ ['e', 'E'], letter.isDigit = false ∧ letter ≠ '.' := by
    intro letter hmem
    simp only [List.mem_cons, List.not_mem_nil, or_false] at hmem
    rcases hmem with rfl | rfl
    · exact ⟨rfl, by decide⟩
    · exact ⟨rfl, by decide⟩
  intro c hc
  cases h with
  | none =>
    refine ⟨not_isDigit_of_closed hrest c hc, ?_⟩
    rintro rfl
    cases hrest '.' hc
  | positive hmem =>
    cases hc
    exact hletter _ hmem
  | negative hmem =>
    cases hc
    exact hletter _ hmem

theorem head?_fraction (h : NumberLiteral.SpelledFraction fraction cs)
    (hrest : ∀ c ∈ rest.head?, c.isDigit = false) :
    ∀ c ∈ (cs ++ rest).head?, c.isDigit = false := by
  intro c hc
  cases h with
  | none => exact hrest c hc
  | point _ =>
    cases hc
    rfl

/-- The sign of a number is told from its digits. -/
theorem minus_signChars (h : IsDigits digits) (negative : Bool) (rest : List Char) :
    minus (NumberLiteral.signChars negative ++ (digits ++ rest)) = (negative, digits ++ rest) := by
  cases negative with
  | true => rfl
  | false =>
    obtain ⟨d, ds, rfl⟩ := List.exists_cons_of_ne_nil h.1
    have hd := h.2 d List.mem_cons_self
    unfold minus
    split
    · next more heq =>
      have hminus : d = '-' := (List.cons.inj heq).1
      rw [hminus] at hd
      cases hd
    · rfl

theorem signChars_minus (cs : List Char) :
    cs = NumberLiteral.signChars (minus cs).1 ++ (minus cs).2 := by
  unfold minus
  split
  · rfl
  · rfl

/-- **A number is read** where no part of a number follows. -/
theorem numberLiteral?_append (h : literal.Spelled cs) (hrest : Number.Closed rest) :
    numberLiteral? (cs ++ rest) = some (literal, rest) := by
  cases h with
  | @mk negative whole fraction exponent fractionChars exponentChars hwhole hfraction hexponent =>
    have hbehind := head?_exponent hexponent hrest
    have hafter := head?_fraction hfraction fun c hc => (hbehind c hc).1
    simp only [List.append_assoc]
    rw [numberLiteral?, minus_signChars hwhole.1]
    dsimp only
    rw [whole?_append hwhole hafter]
    dsimp only [Option.bind_some]
    rw [fraction?_append hfraction hbehind]
    dsimp only [Option.bind_some]
    rw [exponent?_append hexponent hrest]
    rfl

theorem spelled_of_numberLiteral? (h : numberLiteral? cs = some (literal, rest)) :
    ∃ text, literal.Spelled text ∧ cs = text ++ rest := by
  simp only [numberLiteral?, Option.bind_eq_some_iff, Option.map_eq_some_iff] at h
  obtain ⟨⟨whole, _⟩, hwhole, ⟨fraction, _⟩, hfraction, ⟨exponent, _⟩, hexponent, hpair⟩ := h
  obtain ⟨rfl, rfl⟩ := Prod.mk.inj hpair
  obtain ⟨hwhole, hcs⟩ := isWhole_of_whole? hwhole
  obtain ⟨fractionChars, hfraction, hafter⟩ := spelled_of_fraction? hfraction
  obtain ⟨exponentChars, hexponent, hbehind⟩ := spelled_of_exponent? hexponent
  refine ⟨_, .mk hwhole hfraction hexponent, ?_⟩
  dsimp only at hafter hbehind ⊢
  rw [List.append_assoc, List.append_assoc, List.append_assoc, ← hbehind, ← hafter, ← hcs,
    ← signChars_minus]

end Numbers

/-! ### Quoted texts are read -/

section Codes

variable {codes : List Nat} {cs rest name value : List Char}

/-- A quoted text is read up to its closing quote. -/
theorem stringBody?_append (h : SpelledCodes codes cs) (rest : List Char) :
    stringBody? (cs ++ '"' :: rest) = some (codes, rest) := by
  induction h with
  | nil => rfl
  | @plain c codes cs hvisible hquote hslash _ ih =>
    rw [List.cons_append, stringBody?, ih, if_neg]
    · rfl
    · simp [hslash, hvisible]
    · exact hquote
    · rintro a b c' d after rfl
      exact absurd rfl hslash
    · rintro letter after rfl
      exact absurd rfl hslash
  | @escape letter c codes cs hmeant _ ih =>
    have hletter : letter ≠ 'u' := by
      rintro rfl
      cases hmeant
    rw [List.cons_append, List.cons_append, stringBody?_escape hmeant hletter, ih]
    rfl
  | @code a b c d n codes cs hword _ ih =>
    simp only [List.cons_append]
    rw [stringBody?, hword, Option.bind_some, ih]
    rfl

theorem consCode_eq_some {n : Nat} {found : Option (List Nat × List Char)}
    (h : consCode n found = some (codes, rest)) :
    ∃ more, found = some (more, rest) ∧ codes = n :: more := by
  obtain ⟨⟨more, after⟩, rfl, hpair⟩ := Option.map_eq_some_iff.1 h
  obtain ⟨rfl, rfl⟩ := Prod.mk.inj hpair
  exact ⟨more, rfl, rfl⟩

/-- What is read as a quoted text is written as one. -/
theorem spelled_of_stringBody? (h : stringBody? cs = some (codes, rest)) :
    ∃ text, SpelledCodes codes text ∧ cs = text ++ '"' :: rest := by
  induction cs using stringBody?.induct generalizing codes with
  | case1 => cases h
  | case2 more =>
    cases h
    exact ⟨[], .nil, rfl⟩
  | case3 a b c d more ih =>
    obtain ⟨n, hword, hcons⟩ := Option.bind_eq_some_iff.1 h
    obtain ⟨more, hmore, rfl⟩ := consCode_eq_some hcons
    obtain ⟨text, htext, rfl⟩ := ih hmore
    exact ⟨_, .code hword htext, rfl⟩
  | case4 letter more hletter ih =>
    rw [stringBody?] at h
    · obtain ⟨c, hmeant, hcons⟩ := Option.bind_eq_some_iff.1 h
      obtain ⟨more, hmore, rfl⟩ := consCode_eq_some hcons
      obtain ⟨text, htext, rfl⟩ := ih hmore
      exact ⟨_, .escape hmeant htext, rfl⟩
    · exact hletter
  | case5 c more hquote hcode hescape hc =>
    rw [stringBody?, if_pos hc] at h
    · cases h
    · exact hquote
    · exact hcode
    · exact hescape
  | case6 c more hquote hcode hescape hc ih =>
    rw [stringBody?, if_neg hc] at h
    · obtain ⟨more, hmore, rfl⟩ := consCode_eq_some h
      obtain ⟨text, htext, rfl⟩ := ih hmore
      simp only [Bool.or_eq_true, decide_eq_true_eq, beq_iff_eq, not_or, Nat.not_lt] at hc
      exact ⟨_, .plain hc.1 hquote hc.2 htext, rfl⟩
    · exact hquote
    · exact hcode
    · exact hescape

/-- The name of a member is read up to the colon behind it. -/
theorem memberName?_append (h : SpelledName codes name) (rest : List Char) :
    memberName? (name ++ rest) = some (codes, rest) := by
  cases h with
  | @mk before cs after hbefore hcodes hafter =>
    have hopen : afterToken? '"' (before ++ '"' :: (cs ++ '"' :: (after ++ ':' :: rest)))
        = some (cs ++ '"' :: (after ++ ':' :: rest)) := afterToken?_token hbefore rfl _
    have hcolon : afterToken? ':' (after ++ ':' :: rest) = some rest :=
      afterToken?_token hafter rfl rest
    simp only [List.append_assoc, List.cons_append, List.nil_append]
    rw [memberName?, hopen, Option.bind_some, stringBody?_append hcodes, Option.bind_some]
    dsimp only
    rw [hcolon]
    rfl

theorem spelled_of_memberName? (h : memberName? cs = some (codes, value)) :
    ∃ name, SpelledName codes name ∧ cs = name ++ value := by
  simp only [memberName?, Option.bind_eq_some_iff, Option.map_eq_some_iff] at h
  obtain ⟨body, hquote, ⟨codes, after⟩, hbody, rest, hcolon, hpair⟩ := h
  obtain ⟨rfl, rfl⟩ := Prod.mk.inj hpair
  obtain ⟨before, hbefore, rfl⟩ := exists_gap_of_afterToken? hquote
  obtain ⟨text, htext, rfl⟩ := spelled_of_stringBody? hbody
  obtain ⟨behind, hbehind, rfl⟩ := exists_gap_of_afterToken? hcolon
  refine ⟨_, .mk hbefore htext hbehind, ?_⟩
  simp only [List.append_assoc, List.cons_append, List.nil_append]

/-- A character that stands for itself between quotes. -/
def isPlain (c : Char) : Bool := 0x20 ≤ c.toNat && c != '"' && c != '\\'

/-- The code points of a text without escapes. -/
def plainCodes (text : String) : List Nat := text.toList.map Char.toNat

/-- A text without escapes is written as it is. -/
theorem spelledCodes_plainCodes (text : String) (h : text.toList.all isPlain = true) :
    SpelledCodes (plainCodes text) text.toList := by
  rw [plainCodes]
  generalize text.toList = cs at h
  induction cs with
  | nil => exact .nil
  | cons c cs ih =>
    simp only [List.all_cons, isPlain, Bool.and_eq_true, decide_eq_true_eq, bne_iff_ne] at h
    obtain ⟨⟨⟨hvisible, hquote⟩, hslash⟩, hmore⟩ := h
    exact .plain hvisible hquote hslash (ih hmore)

theorem spelledName_plainCodes (name : String) (h : name.toList.all isPlain = true) :
    SpelledName (plainCodes name) ('"' :: (name.toList ++ ['"', ':'])) :=
  .mk isSpaces_nil (spelledCodes_plainCodes name h) isSpaces_nil

end Codes

end Written

end GraphWalk
