import GraphWalk.Proofs.Document.Numerals
import GraphWalk.Proofs.Document.Reading
import GraphWalk.Proofs.Json.Escapes

/-!
# Lexemes of the query language

The reader of the query language's own lexical grammar, character by character: punctuators,
names, numbers and quoted texts, with blanks, line ends and commas wherever one likes between
them.  A name and a number go on as far as they can, and three quotes begin a block of text,
which is not read.  Comments and spreads are left out as well.

## Main definitions

* `QuerySyntax.Lexeme` — what a query is made of.
* `QuerySyntax.lex` — the lexemes of a text.
* `QuerySyntax.Ends` — a name or a number ends here.
* `QuerySyntax.Reads` — a text is read as some lexemes.

## Main results

* `QuerySyntax.reads_name`, `QuerySyntax.reads_number`, `QuerySyntax.reads_quoted` — **names,
  numerals and quoted texts are read.**
-/

namespace GraphWalk

namespace QuerySyntax

open Text

/-- What a query is made of. -/
inductive Lexeme
  /-- A sign of one character. -/
  | punctuator (c : Char)
  /-- A name. -/
  | name (text : String)
  /-- A number, or what looks like one. -/
  | number (chars : List Char)
  /-- A text between quotes, its escapes resolved. -/
  | quoted (text : String)
  deriving DecidableEq, Repr

/-- What may stand between two lexemes. -/
def ignored : List Char := [' ', '\t', '\n', '\r', ',', '\ufeff']

/-- The signs of one character. -/
def punctuators : List Char :=
  ['!', '$', '&', '(', ')', ':', '=', '@', '[', ']', '\x7b', '|', '\x7d']

/-- Where a reader stands. -/
inductive Mode
  /-- Between two lexemes. -/
  | between
  /-- Behind some characters of a name. -/
  | name (word : List Char)
  /-- Behind some characters of a number. -/
  | number (word : List Char)
  /-- In a quoted text, behind what some of its characters stand for. -/
  | quoted (text : List Char)
  /-- Behind two quotes with nothing between them. -/
  | empty
  /-- Behind a backslash in a quoted text. -/
  | escaped (text : List Char)
  /-- Behind some of the four digits of a code point, one of which is still missing, and perhaps
  more. -/
  | code (text : List Char) (value more : Nat)
  deriving DecidableEq, Repr

/-- A character between two lexemes. -/
def opened (c : Char) : Option (List Lexeme × Mode) :=
  if c ∈ ignored then some ([], .between)
  else if c ∈ punctuators then some ([.punctuator c], .between)
  else if c = '"' then some ([], .quoted [])
  else if c.isDigit || c == '-' then some ([], .number [c])
  else if isAsciiWord c then some ([], .name [c])
  else none

/-- A character behind a lexeme that it is not part of. -/
def ended (lexeme : Lexeme) (c : Char) : Option (List Lexeme × Mode) :=
  (opened c).map fun found => (lexeme :: found.1, found.2)

/-- The character goes on with a number. -/
def continues (word : List Char) (c : Char) : Bool :=
  isAsciiWord c || c == '.' ||
    ((c == '+' || c == '-') && (word.getLast? == some 'e' || word.getLast? == some 'E'))

/-- The reader takes one character. -/
def step : Mode → Char → Option (List Lexeme × Mode)
  | .between, c => opened c
  | .name word, c =>
    if isAsciiWord c then some ([], .name (word ++ [c]))
    else ended (.name (String.ofList word)) c
  | .number word, c =>
    if continues word c then some ([], .number (word ++ [c])) else ended (.number word) c
  | .quoted text, c =>
    if c = '"' then
      if text = [] then some ([], .empty)
      else some ([.quoted (String.ofList text)], .between)
    else if c = '\\' then some ([], .escaped text)
    else if c = '\t' ∨ 0x20 ≤ c.toNat then some ([], .quoted (text ++ [c]))
    else none
  | .empty, c => if c = '"' then none else ended (.quoted "") c
  | .escaped text, c =>
    if c = 'u' then some ([], .code text 0 3)
    else (Written.escape? c).map fun meant => ([], .quoted (text ++ [meant]))
  | .code text value more, c =>
    (hexValue? c).bind fun digit =>
      match more with
      | more + 1 => some ([], .code text (value * 16 + digit) more)
      | 0 =>
        if (value * 16 + digit).isValidChar then
          some ([], .quoted (text ++ [Char.ofNat (value * 16 + digit)]))
        else none

/-- What has been read when the text ends. -/
def finished : Mode → Option (List Lexeme)
  | .between => some []
  | .name word => some [.name (String.ofList word)]
  | .number word => some [.number word]
  | .empty => some [.quoted ""]
  | _ => none

/-- The lexemes of a text.  None when something in it is no lexeme. -/
def lex : Mode → List Char → Option (List Lexeme)
  | mode, [] => finished mode
  | mode, c :: cs => (step mode c).bind fun found => (lex found.2 cs).map (found.1 ++ ·)

/-- Neither a name nor a number goes on, and no quoted text begins. -/
def Ends (cs : List Char) : Prop := ∀ c ∈ cs.head?, c ∈ ignored ++ punctuators

/-- A text is read as some lexemes, if what follows it is no part of them. -/
def Reads (cs : List Char) (lexemes : List Lexeme) : Prop :=
  ∀ rest, Ends rest → lex .between (cs ++ rest) = (lex .between rest).map (lexemes ++ ·)

variable {c : Char} {cs ds word : List Char} {lexemes more : List Lexeme} {mode next : Mode}

/-! ### Steps of the reader -/

theorem lex_cons (lexemes : List Lexeme) (next : Mode) (h : step mode c = some (lexemes, next))
    (cs : List Char) :
    lex mode (c :: cs) = (lex next cs).map (lexemes ++ ·) := by
  rw [lex, h]
  rfl

/-- A character with which nothing comes to its end. -/
theorem lex_silent (next : Mode) (h : step mode c = some ([], next)) (cs : List Char) :
    lex mode (c :: cs) = lex next cs :=
  (lex_cons [] next h cs).trans Option.map_id'

theorem ends_cons (h : c ∈ ignored ++ punctuators) (cs : List Char) : Ends (c :: cs) := by
  intro d hd
  rw [← Option.some.inj hd]
  exact h

theorem ends_nil : Ends [] := nofun

/-- What ends a name ends a number and is no quote. -/
theorem not_continues (h : c ∈ ignored ++ punctuators) :
    isAsciiWord c = false ∧ c ≠ '"' ∧ ∀ word, continues word c = false := by
  have hall : ((ignored ++ punctuators).all fun c =>
      !(isAsciiWord c || c == '"' || c == '.' || (c == '+' || c == '-'))) = true := by
    decide
  have hnone := List.all_eq_true.1 hall c h
  rw [Bool.not_eq_true', Bool.or_eq_false_iff, Bool.or_eq_false_iff, Bool.or_eq_false_iff,
    beq_eq_false_iff_ne] at hnone
  obtain ⟨⟨⟨hword, hquote⟩, hpoint⟩, hsign⟩ := hnone
  refine ⟨hword, hquote, fun word => ?_⟩
  rw [continues, hword, hpoint, hsign]
  rfl

/-- A lexeme that has been read is there, whatever follows. -/
theorem lex_ended {lexeme : Lexeme} (hfinished : finished mode = some [lexeme])
    (hstep : ∀ c ∈ ignored ++ punctuators, step mode c = ended lexeme c) {rest : List Char}
    (hends : Ends rest) : lex mode rest = (lex .between rest).map (lexeme :: ·) := by
  cases rest with
  | nil => exact hfinished
  | cons c rest =>
    rw [lex, lex, hstep c (hends c rfl), ended, step]
    cases opened c with
    | none => rfl
    | some found => simp only [Option.map_some, Option.bind_some, Option.map_map]; rfl

/-! ### Texts that are read -/

theorem reads_nil : Reads [] [] := fun _ _ => Option.map_id'.symm

/-- Ignored characters may stand anywhere. -/
theorem Reads.ignored (h : Reads cs lexemes) (hc : c ∈ ignored) : Reads (c :: cs) lexemes := by
  intro rest hends
  rw [List.cons_append, lex_silent .between, h rest hends]
  rw [step, opened, if_pos hc]

/-- A punctuator stands for itself. -/
theorem Reads.punctuator (h : Reads cs lexemes) (hc : c ∈ punctuators) :
    Reads (c :: cs) (.punctuator c :: lexemes) := by
  intro rest hends
  have hnot : c ∉ QuerySyntax.ignored := by
    have hall : (punctuators.all fun c => decide (c ∉ QuerySyntax.ignored)) = true := by decide
    exact of_decide_eq_true (List.all_eq_true.1 hall c hc)
  rw [List.cons_append, lex_cons [.punctuator c] .between, h rest hends,
    Option.map_map]
  · rfl
  · rw [step, opened, if_neg hnot, if_pos hc]

theorem reads_punctuator (hc : c ∈ punctuators) : Reads [c] [.punctuator c] :=
  reads_nil.punctuator hc

/-- A comma and a blank stand for nothing. -/
theorem Reads.comma (h : Reads cs lexemes) : Reads (',' :: ' ' :: cs) lexemes :=
  (h.ignored (by decide)).ignored (by decide)

/-- A text is read up to a character that ends it, and on from there. -/
theorem Reads.append (h : Reads cs lexemes) (hc : c ∈ QuerySyntax.ignored ++ punctuators)
    (hmore : Reads (c :: ds) more) : Reads (cs ++ c :: ds) (lexemes ++ more) := by
  intro rest hrest
  have hends : Ends (c :: ds ++ rest) := ends_cons hc _
  rw [List.append_assoc, h _ hends, hmore rest hrest, Option.map_map]
  congr 1
  funext found
  exact (List.append_assoc _ _ _).symm

/-! ### Names and numbers -/

/-- The characters of a name are taken together. -/
theorem lex_name (hcs : ∀ c ∈ cs, isAsciiWord c = true) (word rest : List Char) :
    lex (.name word) (cs ++ rest) = lex (.name (word ++ cs)) rest := by
  induction cs generalizing word with
  | nil => rw [List.nil_append, List.append_nil]
  | cons c cs ih =>
    rw [List.cons_append, lex_silent (.name (word ++ [c])),
      ih (fun d hd => hcs d (List.mem_cons_of_mem _ hd)), List.append_assoc]
    · rfl
    · rw [step, if_pos (hcs c List.mem_cons_self)]

/-- A character of a word that is no digit begins a name. -/
theorem opened_name (hword : isAsciiWord c = true) (hdigit : c.isDigit = false) :
    opened c = some ([], .name [c]) := by
  have hne : ∀ d, isAsciiWord d = false → c ≠ d := by
    rintro d hd rfl
    rw [hword] at hd
    cases hd
  have hnot : c ∉ ignored ++ punctuators := fun hc => by
    rw [(not_continues hc).1] at hword
    cases hword
  rw [List.mem_append, not_or] at hnot
  rw [opened, if_neg hnot.1, if_neg hnot.2, if_neg (hne '"' (by decide)), hdigit,
    beq_eq_false_iff_ne.2 (hne '-' (by decide)), if_neg (by decide), if_pos hword]

/-- **A name is read.** -/
theorem reads_name {name : String} (h : Document.IsName name) :
    Reads name.toList [.name name] := by
  obtain ⟨⟨c, cs, hcons, hdigit⟩, hall⟩ := h
  intro rest hends
  have hended : lex (.name name.toList) rest = (lex .between rest).map (.name name :: ·) := by
    refine lex_ended ?_ (fun d hd => ?_) hends
    · rw [finished, String.ofList_toList]
    · rw [step, (not_continues hd).1, if_neg Bool.false_ne_true, String.ofList_toList]
  rw [hcons] at hall
  rw [hcons, List.cons_append, lex_silent (.name [c]),
    lex_name fun d hd => hall d (List.mem_cons_of_mem _ hd)]
  · rw [hcons] at hended
    exact hended
  · exact opened_name (hall c List.mem_cons_self) hdigit

/-- A number goes on with a text. -/
def Grows (word cs : List Char) : Prop :=
  ∀ rest, lex (.number word) (cs ++ rest) = lex (.number (word ++ cs)) rest

theorem grows_nil (word : List Char) : Grows word [] := by
  intro rest
  rw [List.nil_append, List.append_nil]

theorem Grows.cons (hc : continues word c = true) (hcs : Grows (word ++ [c]) cs) :
    Grows word (c :: cs) := by
  intro rest
  rw [List.cons_append, lex_silent (.number (word ++ [c])), hcs, List.append_assoc]
  · rfl
  · rw [step, if_pos hc]

theorem Grows.append (hcs : Grows word cs) (hds : Grows (word ++ cs) ds) :
    Grows word (cs ++ ds) := by
  intro rest
  rw [List.append_assoc, hcs, hds, List.append_assoc]

theorem continues_of_isDigit (h : c.isDigit = true) (word : List Char) :
    continues word c = true := by
  rw [continues, isAsciiWord, Char.isAlphanum, h, Bool.or_true, Bool.true_or, Bool.true_or,
    Bool.true_or]

/-- Digits go on with any number. -/
theorem grows_digits (h : ∀ c ∈ cs, c.isDigit = true) (word : List Char) : Grows word cs := by
  induction cs generalizing word with
  | nil => exact grows_nil word
  | cons c cs ih =>
    exact .cons (continues_of_isDigit (h c List.mem_cons_self) word)
      (ih (fun d hd => h d (List.mem_cons_of_mem _ hd)) _)

theorem grows_fraction (h : IsFraction cs) (word : List Char) : Grows word cs := by
  cases h with
  | none => exact grows_nil word
  | point hdigits => exact .cons rfl (grows_digits hdigits.2 _)

theorem grows_exponent (h : IsExponent cs) (word : List Char) : Grows word cs := by
  cases h with
  | none => exact grows_nil word
  | @power letter sign digits hletter hsign hdigits =>
    have heither : letter = 'e' ∨ letter = 'E' := by
      simpa only [List.mem_cons, List.not_mem_nil, or_false] using hletter
    have hword : isAsciiWord letter = true := by
      rcases heither with rfl | rfl <;> rfl
    have hlast : ((word ++ [letter]).getLast? == some 'e' ||
        (word ++ [letter]).getLast? == some 'E') = true := by
      rw [List.getLast?_concat]
      rcases heither with rfl | rfl <;> rfl
    refine .cons ?_ (.append ?_ (grows_digits hdigits.2 _))
    · rw [continues, hword, Bool.true_or, Bool.true_or]
    -- a sign belongs to the number right behind the letter only
    · have hsigned : ∀ c, (c == '+' || c == '-') = true → Grows (word ++ [letter]) [c] := by
        intro c hc
        refine .cons ?_ (grows_nil _)
        rw [continues, hc, hlast, Bool.and_true, Bool.or_true]
      simp only [List.mem_cons, List.not_mem_nil, or_false] at hsign
      rcases hsign with rfl | rfl | rfl
      · exact grows_nil _
      · exact hsigned '+' rfl
      · exact hsigned '-' rfl

/-- A digit or a minus sign begins a number. -/
theorem opened_number (h : c.isDigit = true ∨ c = '-') : opened c = some ([], .number [c]) := by
  have hnumber : (c.isDigit || c == '-') = true := by
    rw [Bool.or_eq_true, beq_iff_eq]
    exact h
  have hne : ∀ d, (d.isDigit || d == '-') = false → c ≠ d := by
    rintro d hd rfl
    rw [hnumber] at hd
    cases hd
  have hnot : c ∉ ignored ++ punctuators := by
    have hall : ((ignored ++ punctuators).all fun d => !(d.isDigit || d == '-')) = true := by
      decide
    intro hc
    have hnone := List.all_eq_true.1 hall c hc
    rw [hnumber] at hnone
    cases hnone
  rw [List.mem_append, not_or] at hnot
  rw [opened, if_neg hnot.1, if_neg hnot.2, if_neg (hne '"' (by decide)), if_pos hnumber]

/-- **A numeral is read.** -/
theorem reads_number (h : IsNumeral cs) : Reads cs [.number cs] := by
  intro rest hends
  have hended : lex (.number cs) rest = (lex .between rest).map (.number cs :: ·) := by
    refine lex_ended rfl (fun d hd => ?_) hends
    rw [step, (not_continues hd).2.2, if_neg Bool.false_ne_true]
  obtain ⟨d, ds, rfl, hopened, hgrows⟩ : ∃ d ds, cs = d :: ds ∧
      (d.isDigit = true ∨ d = '-') ∧ Grows [d] ds := by
    cases h with
    | @mk sign whole fraction exponent hsign hwhole hfraction hexponent =>
      have htail : ∀ word, Grows word (fraction ++ exponent) := fun word =>
        (grows_fraction hfraction word).append (grows_exponent hexponent _)
      simp only [List.mem_cons, List.not_mem_nil, or_false] at hsign
      rcases hsign with rfl | rfl
      · obtain ⟨⟨hne, hdigits⟩, -⟩ := hwhole
        cases whole with
        | nil => exact absurd rfl hne
        | cons d whole =>
          have hwhole := grows_digits (fun c hc => hdigits c (List.mem_cons_of_mem _ hc)) [d]
          exact ⟨d, whole ++ (fraction ++ exponent), rfl, .inl (hdigits d List.mem_cons_self),
            hwhole.append (htail _)⟩
      · exact ⟨'-', whole ++ (fraction ++ exponent), rfl, .inr rfl,
          (grows_digits hwhole.1.2 _).append (htail _)⟩
  have hbegins : step .between d = some ([], .number [d]) := opened_number hopened
  rw [List.cons_append, lex_silent _ hbegins, hgrows]
  exact hended

/-! ### Quoted texts -/

/-- An escape of one letter stands for its character. -/
theorem lex_escape {letter meant : Char} (h : Written.escape? letter = some meant)
    (hletter : letter ≠ 'u') (text rest : List Char) :
    lex (.quoted text) ('\\' :: letter :: rest) = lex (.quoted (text ++ [meant])) rest := by
  rw [lex_silent (.escaped text) (by rw [step, if_neg (by decide), if_pos rfl]),
    lex_silent]
  rw [step, if_neg hletter, h]
  rfl

/-- The digits of a character stand for it. -/
theorem lex_code (h : c.toNat < 256) (text rest : List Char) :
    lex (.quoted text) (['\\', 'u', '0', '0'] ++ Json.hexPair c.toNat ++ rest)
      = lex (.quoted (text ++ [c])) rest := by
  have hhigh := hexValue?_digitChar (n := c.toNat / 16) (by omega)
  have hlow := hexValue?_digitChar (n := c.toNat % 16) (by omega)
  have hvalue : c.toNat / 16 * 16 + c.toNat % 16 = c.toNat := by omega
  show lex (.quoted text) ('\\' :: 'u' :: '0' :: '0' :: Nat.digitChar (c.toNat / 16)
    :: Nat.digitChar (c.toNat % 16) :: rest) = _
  rw [lex_silent (.escaped text) (by rw [step, if_neg (by decide), if_pos rfl]),
    lex_silent (.code text 0 3) (by rw [step, if_pos rfl]),
    lex_silent (.code text 0 2) rfl, lex_silent (.code text 0 1) rfl,
    lex_silent (.code text (c.toNat / 16) 0), lex_silent]
  · rw [step, hlow, Option.bind_some]
    dsimp only
    rw [hvalue, if_pos, Char.ofNat_toNat]
    exact c.valid
  · rw [step, hhigh, Option.bind_some]
    dsimp only
    rw [Nat.zero_mul, Nat.zero_add]

/-- A character of a quoted text is read as itself, escaped if need be. -/
theorem lex_escapedChar (c : Char) (text rest : List Char) :
    lex (.quoted text) (Json.escapedChar c ++ rest) = lex (.quoted (text ++ [c])) rest := by
  rcases Json.escapedChar_cases c with ⟨letter, hmeant, hletter, hc⟩ | ⟨hcontrol, hc⟩ | hplain
  · rw [hc]
    exact lex_escape hmeant hletter text rest
  · rw [hc]
    exact lex_code (by omega) text rest
  · obtain ⟨hquote, hslash, hvisible, hc⟩ := hplain
    rw [hc]
    refine lex_silent _ ?_ rest
    rw [step, if_neg hquote, if_neg hslash, if_pos (.inr hvisible)]

/-- The characters of a quoted text are read up to the quote behind them. -/
theorem lex_flatMap_escapedChar (cs text rest : List Char) :
    lex (.quoted text) (cs.flatMap Json.escapedChar ++ rest)
      = lex (.quoted (text ++ cs)) rest := by
  induction cs generalizing text with
  | nil => rw [List.flatMap_nil, List.nil_append, List.append_nil]
  | cons c cs ih =>
    rw [List.flatMap_cons, List.append_assoc, lex_escapedChar, ih, List.append_assoc]
    rfl

/-- **A quoted text is read.** -/
theorem reads_quoted (s : String) : Reads (Json.quoted s) [.quoted s] := by
  intro rest hends
  have hshape : Json.quoted s ++ rest
      = '"' :: (s.toList.flatMap Json.escapedChar ++ '"' :: rest) := by
    rw [Json.quoted, List.cons_append, List.append_assoc]
    rfl
  rw [hshape, lex_silent (.quoted []) rfl, lex_flatMap_escapedChar, List.nil_append]
  by_cases hs : s.toList = []
  · obtain rfl : s = "" := by rw [← String.ofList_toList (s := s), hs]
    rw [lex_silent .empty rfl]
    refine lex_ended rfl (fun d hd => ?_) hends
    rw [step, if_neg (not_continues hd).2.1]
  · rw [lex_cons [.quoted s] .between]
    rw [step, if_pos rfl, if_neg hs, String.ofList_toList]

/-- Blanks and commas are left out, and escapes are resolved. -/
example : lex .between "t: \"a\\\"\\u00e9\", n: -1.5e+3".toList
    = some [.name "t", .punctuator ':', .quoted "a\"é", .name "n", .punctuator ':',
      .number ['-', '1', '.', '5', 'e', '+', '3']] := by
  decide

end QuerySyntax

end GraphWalk
