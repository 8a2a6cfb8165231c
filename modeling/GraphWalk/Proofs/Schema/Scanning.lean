import GraphWalk.Proofs.Schema.FieldText

/-!
# Looking for definitions

Each kind of declaration is looked for on its own, from its keyword on, in the whole text.
A word that is no keyword of the kind begins none, and neither does a keyword directly
before a sign: so a keyword may name a field.  If every definition of the kind is read from
its keyword on, what is found are these, in the order in which they are written.

The recognisers know nothing of quoted texts, and look for declarations in them as well.

## Main definitions

* `BeginsWith` — the keywords of a kind of declarations.
* `Hushed` — a quoted text in which none is found.
* `Quiet` — lexemes among which none begins.
* `Finds` — what is found from the beginning of a definition on.

## Main results

* `BeginsWith.scan_quiet` — nothing is found among quiet lexemes.
* `NotedDefinition.quiet` — a definition is quiet for the other kinds.
* `BeginsWith.scan_eq` — **the definitions of the kind are found, in order.**
-/

namespace GraphWalk

namespace SchemaSyntax

open Text Declaration

variable {lexemes more : List Lexeme} {tokens : List Token} {cs rest tail : List Char} {c : Char}
variable {name keyword : String} {kinds : List String} {α β : Type} {r : Recogniser α}

/-! ### Keywords -/

theorem word?_word (hword : IsWord name) (hends : Ends rest) :
    word? (name.toList ++ rest) = some (name, rest) := by
  obtain ⟨htake, hdrop⟩ := span_eq (fun c hc => (isWord_of_isAsciiWord (hword.2 c hc)).1)
    fun c hc => (hends c hc).1
  have hnonempty : ¬ name.toList.isEmpty = true := List.isEmpty_iff.not.2 hword.1
  rw [word?, htake, hdrop, if_neg hnonempty, String.ofList_toList]

theorem word?_of_not_isWord (hc : Text.isWord c = false) : word? (c :: cs) = none := by
  have htake : (c :: cs).takeWhile Text.isWord = [] := List.takeWhile_cons_of_neg (by simp [hc])
  rw [word?, htake]
  rfl

/-- A word next to a keyword is set off by a blank, and read from there on. -/
theorem afterKeyword?_word (h : Spelled tail (.word name :: lexemes) rest) (hends : Ends rest) :
    afterKeyword? keyword (keyword.toList ++ rest) = some (dropBlanks rest) := by
  rw [afterKeyword?, after?_append]
  cases h with
  | @cons gap cs _ _ blank valid _ _ =>
    cases gap with
    | nil =>
      -- with no blank between them the two would be one word
      obtain ⟨c, more, hname, hc⟩ := IsWord.exists_cons valid
      rw [List.nil_append, Lexeme.chars, hname] at hends
      have hcontra := (isWord_of_isAsciiWord hc).1
      rw [(hends c rfl).1] at hcontra
      cases hcontra
    | cons c gap =>
      have hc : isBlank c = true := blank c List.mem_cons_self
      simp only [List.cons_append, hc, if_true, dropBlanks_cons_of_blank]

/-- The name behind a keyword is found. -/
theorem named?_word (keyword : String) (h : Spelled tail (.word name :: lexemes) rest)
    (hends : Ends rest) : ∃ after, named? keyword (keyword.toList ++ rest) = some (name, after) ∧
      Spelled tail lexemes after := by
  obtain ⟨after, hnext, hword, hends', hafter⟩ := h.next_word
  refine ⟨after, ?_, hafter⟩
  rw [named?, afterKeyword?_word h hends, Option.bind_some, hnext, word?_word hword hends']

/-- A text that goes on behind a keyword begins with it, and with a blank after it. -/
theorem eq_append_of_afterKeyword? (h : afterKeyword? keyword cs = some rest) :
    ∃ c after, cs = keyword.toList ++ c :: after ∧ isBlank c = true ∧
      rest = dropBlanks (c :: after) := by
  rw [afterKeyword?] at h
  split at h
  · next c after hbegins =>
    simp only [Option.ite_none_right_eq_some, Option.some.injEq] at h
    obtain ⟨hc, rfl⟩ := h
    exact ⟨c, after, after?_eq_some_iff.1 hbegins, hc, (dropBlanks_cons_of_blank hc after).symm⟩
  · cases h

/-- No keyword stands where no word begins. -/
theorem afterKeyword?_of_not_isWord (hkeyword : IsWord keyword) (hc : Text.isWord c = false)
    (cs : List Char) : afterKeyword? keyword (c :: cs) = none := by
  cases hafter : afterKeyword? keyword (c :: cs) with
  | none => rfl
  | some rest =>
    obtain ⟨d, after, heq, -⟩ := eq_append_of_afterKeyword? hafter
    obtain ⟨first, others, hfirst, hword⟩ := hkeyword.exists_cons
    rw [hfirst, List.cons_append, List.cons.injEq] at heq
    have hcontra := (isWord_of_isAsciiWord hword).1
    rw [← heq.1, hc] at hcontra
    cases hcontra

/-- Only behind the keyword itself something is found. -/
theorem named?_eq_some {found : String × List Char} (hkeyword : IsWord keyword)
    (hword : IsWord name) (hends : Ends rest)
    (h : named? keyword (name.toList ++ rest) = some found) :
    name = keyword ∧ word? (dropBlanks rest) = some found := by
  obtain ⟨interim, hafter, hfound⟩ := Option.bind_eq_some_iff.1 h
  obtain ⟨c, after, heq, hc, rfl⟩ := eq_append_of_afterKeyword? hafter
  have hafter : ∀ d ∈ (c :: after).head?, Text.isWord d = false := by
    rintro d hd
    cases hd
    exact (not_isWord_of_isBlank hc).1
  -- both words end at the first character that belongs to none
  have hname := span_eq (fun d hd => (isWord_of_isAsciiWord (hword.2 d hd)).1)
    fun d hd => (hends d hd).1
  have hkey := span_eq (fun d hd => (isWord_of_isAsciiWord (hkeyword.2 d hd)).1) hafter
  rw [heq] at hname
  have hrest : rest = c :: after := hname.2.symm.trans hkey.2
  rw [hrest]
  exact ⟨String.toList_inj.1 (hname.1.symm.trans hkey.1), hfound⟩

theorem named?_of_ne (hkeyword : IsWord keyword) (hword : IsWord name) (hends : Ends rest)
    (hne : name ≠ keyword) : named? keyword (name.toList ++ rest) = none := by
  cases hnamed : named? keyword (name.toList ++ rest) with
  | none => rfl
  | some found => exact absurd (named?_eq_some hkeyword hword hends hnamed).1 hne

/-- A word directly before a sign is no keyword of a declaration. -/
theorem named?_before_sign (hkeyword : IsWord keyword) (hword : IsWord name) (hends : Ends rest)
    (hsign : Spelled tail (.sign c :: lexemes) rest) :
    named? keyword (name.toList ++ rest) = none := by
  cases hnamed : named? keyword (name.toList ++ rest) with
  | none => rfl
  | some found =>
    obtain ⟨after, hnext, hc, -⟩ := hsign.next_sign
    have hfound := (named?_eq_some hkeyword hword hends hnamed).2
    rw [hnext, word?_of_not_isWord (not_isWord_of_mem_signs hc).1] at hfound
    cases hfound

/-! ### Passing over what begins no declaration -/

/-- Keywords of definitions. -/
def AreKinds (kinds : List String) : Prop := ∀ keyword ∈ kinds, keyword ∈ keywords.dropLast

instance (kinds : List String) : Decidable (AreKinds kinds) :=
  inferInstanceAs (Decidable (∀ keyword ∈ kinds, keyword ∈ keywords.dropLast))

/-- The declarations of a kind begin with one of some keywords and a name. -/
structure BeginsWith (r : Recogniser α) (kinds : List String) : Prop where
  areKinds : AreKinds kinds
  named : ∀ {cs found}, r.read? cs = some found → ∃ keyword ∈ kinds, (named? keyword cs).isSome

theorem BeginsWith.words (hr : BeginsWith r kinds) :
    ∀ keyword ∈ kinds, IsWord keyword := fun keyword hkeyword =>
  isWord_of_mem_keywords (List.dropLast_subset _ (hr.areKinds keyword hkeyword))

theorem BeginsWith.read?_eq_none (hr : BeginsWith r kinds)
    (h : ∀ keyword ∈ kinds, named? keyword cs = none) : r.read? cs = none := by
  cases hread : r.read? cs with
  | none => rfl
  | some found =>
    obtain ⟨keyword, hkeyword, hnamed⟩ := hr.named hread
    rw [h keyword hkeyword] at hnamed
    cases hnamed

/-- Outside of words nothing begins. -/
theorem BeginsWith.scan_skip (hr : BeginsWith r kinds) (hc : Text.isWord c = false)
    (cs : List Char) : r.scan false (c :: cs) = r.scan false cs := by
  rw [r.scan_of_read?_eq_none, hc]
  refine hr.read?_eq_none fun keyword hkeyword => ?_
  rw [named?, afterKeyword?_of_not_isWord (hr.words keyword hkeyword) hc]
  rfl

theorem BeginsWith.scan_dropBlanks (hr : BeginsWith r kinds) (cs : List Char) :
    r.scan false (dropBlanks cs) = r.scan false cs := by
  induction cs with
  | nil => rfl
  | cons c cs ih =>
    cases hc : isBlank c with
    | false => rw [dropBlanks_cons_of_not_blank hc]
    | true =>
      rw [dropBlanks_cons_of_blank hc, hr.scan_skip (not_isWord_of_isBlank hc).1, ih]

/-- Inside a word nothing begins. -/
theorem BeginsWith.scan_inWord (hr : BeginsWith r kinds) {word : List Char}
    (hword : ∀ c ∈ word, isAsciiWord c = true) (hends : Ends rest) :
    r.scan true (word ++ rest) = r.scan false rest := by
  induction word with
  | nil =>
    cases rest with
    | nil => rw [List.nil_append, r.scan_nil, r.scan_nil]
    | cons c rest =>
      -- the character behind the word is passed over either way
      have hc := (hends c rfl).1
      rw [List.nil_append, r.scan_inWord, hc, hr.scan_skip hc]
  | cons c word ih =>
    obtain ⟨hc, hword⟩ := List.forall_mem_cons.1 hword
    rw [List.cons_append, r.scan_inWord, (isWord_of_isAsciiWord hc).1, ih hword]

/-- A word with which nothing begins is passed over as a whole. -/
theorem BeginsWith.scan_word (hr : BeginsWith r kinds) (hword : IsWord name) (hends : Ends rest)
    (hnone : ∀ keyword ∈ kinds, named? keyword (name.toList ++ rest) = none) :
    r.scan false (name.toList ++ rest) = r.scan false rest := by
  have hread := hr.read?_eq_none hnone
  obtain ⟨c, word, hname, hc⟩ := hword.exists_cons
  have hall := hword.2
  rw [hname] at hall
  rw [hname, List.cons_append] at hread ⊢
  rw [r.scan_of_read?_eq_none hread, (isWord_of_isAsciiWord hc).1,
    hr.scan_inWord (List.forall_mem_cons.1 hall).2 hends]

/-- No keyword is part of a number. -/
theorem named?_numeral (hkeyword : keyword ∈ keywords.dropLast) {digits : List Char}
    (hdigits : ∀ c ∈ digits, isNumeral c = true) (hends : Ends rest) :
    named? keyword (digits ++ rest) = none := by
  have hletters : ∀ keyword ∈ keywords.dropLast, keyword.toList.all isNumeral = false := by
    decide +kernel
  obtain ⟨c, hc, hnumeral⟩ := List.all_eq_false.1 (hletters keyword hkeyword)
  have hnot : ∀ {run}, keyword.toList ++ run ≠ digits := by
    rintro run rfl
    exact hnumeral (hdigits c (List.mem_append_left run hc))
  cases hnamed : named? keyword (digits ++ rest) with
  | none => rfl
  | some found =>
    obtain ⟨interim, hafter, -⟩ := Option.bind_eq_some_iff.1 hnamed
    obtain ⟨d, after, heq, -⟩ := eq_append_of_afterKeyword? hafter
    rcases List.append_eq_append_iff.1 heq with ⟨run, hrun, hrest⟩ | ⟨run, hrun, -⟩
    · -- the keyword would go on behind the number
      cases run with
      | nil => exact absurd (a := keyword.toList ++ [] = digits) (by simpa using hrun) hnot
      | cons e run =>
        have hword := isWord_of_mem_keywords (List.dropLast_subset _ hkeyword)
        have he := (isWord_of_isAsciiWord (hword.2 e (hrun ▸ by simp))).1
        rw [hrest] at hends
        rw [(hends e rfl).1] at he
        cases he
    · exact absurd hrun.symm hnot

/-- A number is passed over as a whole. -/
theorem BeginsWith.scan_numeral (hr : BeginsWith r kinds) {digits : List Char}
    (hdigits : ∀ c ∈ digits, isNumeral c = true) (hends : Ends rest) (inWord : Bool) :
    r.scan inWord (digits ++ rest) = r.scan false rest := by
  induction digits generalizing inWord with
  | nil =>
    cases inWord with
    | false => rfl
    | true => exact hr.scan_inWord (List.forall_mem_nil _) hends
  | cons c digits ih =>
    have hrest := ih (List.forall_mem_cons.1 hdigits).2
    rw [List.cons_append]
    cases inWord with
    | true => rw [r.scan_inWord, hrest]
    | false =>
      have hread := hr.read?_eq_none fun keyword hkeyword =>
        named?_numeral (hr.areKinds keyword hkeyword) hdigits hends
      rw [List.cons_append] at hread
      rw [r.scan_of_read?_eq_none hread, hrest]

/-- A quoted text in which no declaration begins, whatever follows it. -/
def Hushed (r : Recogniser α) (content : List Char) : Prop :=
  ∀ rest, r.scan false (content ++ '"' :: rest) = r.scan false rest

/-- Lexemes with which no declaration begins: a word is no keyword, or stands directly before a
sign. -/
inductive Quiet (r : Recogniser α) (kinds : List String) : List Lexeme → Prop
  /-- The end. -/
  | nil : Quiet r kinds []
  /-- A sign. -/
  | sign {c : Char} {lexemes : List Lexeme} (rest : Quiet r kinds lexemes) :
      Quiet r kinds (.sign c :: lexemes)
  /-- A word that is no keyword. -/
  | word {name : String} {lexemes : List Lexeme} (other : name ∉ kinds)
      (rest : Quiet r kinds lexemes) : Quiet r kinds (.word name :: lexemes)
  /-- Any word before a sign. -/
  | before {name : String} {c : Char} {lexemes : List Lexeme} (rest : Quiet r kinds lexemes) :
      Quiet r kinds (.word name :: .sign c :: lexemes)
  /-- A number. -/
  | numeral {digits : List Char} {lexemes : List Lexeme} (rest : Quiet r kinds lexemes) :
      Quiet r kinds (.numeral digits :: lexemes)
  /-- A quoted text in which nothing is found. -/
  | quoted {content : List Char} {lexemes : List Lexeme} (hushed : Hushed r content)
      (rest : Quiet r kinds lexemes) : Quiet r kinds (.quoted content :: lexemes)

theorem Quiet.append (h : Quiet r kinds lexemes) (hmore : Quiet r kinds more) :
    Quiet r kinds (lexemes ++ more) := by
  induction h with
  | nil => exact hmore
  | sign _ ih => exact .sign ih
  | word other _ ih => exact .word other ih
  | before _ ih => exact .before ih
  | numeral _ ih => exact .numeral ih
  | quoted hushed _ ih => exact .quoted hushed ih

theorem quiet_flatMap {γ : Type} {items : List γ} {lexemesOf : γ → List Lexeme}
    (h : ∀ item ∈ items, Quiet r kinds (lexemesOf item)) :
    Quiet r kinds (items.flatMap lexemesOf) := by
  induction items with
  | nil => exact .nil
  | cons item items ih =>
    obtain ⟨hitem, hitems⟩ := List.forall_mem_cons.1 h
    exact hitem.append (ih hitems)

theorem quiet_of_words (h : ∀ name, Token.word name ∈ tokens → name ∉ kinds) :
    Quiet r kinds (plain tokens) := by
  induction tokens with
  | nil => exact .nil
  | cons token tokens ih =>
    have hrest := ih fun name hname => h name (List.mem_cons_of_mem _ hname)
    cases token with
    | sign c => exact .sign hrest
    | word name => exact .word (h name List.mem_cons_self) hrest

/-- **Nothing is found among quiet lexemes.** -/
theorem BeginsWith.scan_quiet (hr : BeginsWith r kinds) (hquiet : Quiet r kinds lexemes)
    (h : Spelled tail (lexemes ++ more) cs) :
    ∃ rest, Spelled tail more rest ∧ r.scan false cs = r.scan false rest := by
  -- a text is passed over lexeme by lexeme, with a word taken together with the sign behind it if
  -- that is what makes it quiet
  induction hquiet generalizing cs with
  | nil => exact ⟨cs, h, rfl⟩
  | sign _ ih =>
    obtain ⟨after, hnext, hc, hafter⟩ := h.next_sign
    obtain ⟨rest, hrest, hscan⟩ := ih hafter
    refine ⟨rest, hrest, ?_⟩
    rw [← hr.scan_dropBlanks cs, hnext, hr.scan_skip (not_isWord_of_mem_signs hc).1, hscan]
  | word other _ ih =>
    obtain ⟨after, hnext, hword, hends, hafter⟩ := h.next_word
    obtain ⟨rest, hrest, hscan⟩ := ih hafter
    refine ⟨rest, hrest, ?_⟩
    rw [← hr.scan_dropBlanks cs, hnext, hr.scan_word hword hends fun keyword hkeyword => ?_, hscan]
    exact named?_of_ne (hr.words keyword hkeyword) hword hends fun heq => other (heq ▸ hkeyword)
  | before _ ih =>
    obtain ⟨after, hnext, hword, hends, hafter⟩ := h.next_word
    obtain ⟨afterSign, hsign, hc, hafterSign⟩ := hafter.next_sign
    obtain ⟨rest, hrest, hscan⟩ := ih hafterSign
    refine ⟨rest, hrest, ?_⟩
    rw [← hr.scan_dropBlanks cs, hnext, hr.scan_word hword hends fun keyword hkeyword =>
        named?_before_sign (hr.words keyword hkeyword) hword hends hafter,
      ← hr.scan_dropBlanks after, hsign, hr.scan_skip (not_isWord_of_mem_signs hc).1, hscan]
  | numeral _ ih =>
    obtain ⟨after, hnext, hvalid, hends, hafter⟩ := h.next
    obtain ⟨rest, hrest, hscan⟩ := ih hafter
    refine ⟨rest, hrest, ?_⟩
    rw [← hr.scan_dropBlanks cs, hnext, Lexeme.chars,
      hr.scan_numeral hvalid.2 (hafter.ends fun c hc => (hends c hc).1), hscan]
  | @quoted content lexemes hushed _ ih =>
    obtain ⟨after, hnext, -, -, hafter⟩ := h.next
    obtain ⟨rest, hrest, hscan⟩ := ih hafter
    refine ⟨rest, hrest, ?_⟩
    rw [← hr.scan_dropBlanks cs, hnext, Lexeme.chars_quoted_append,
      hr.scan_skip not_isWord_quote.1, hushed, hscan]

/-! ### The other kinds of definitions -/

theorem ObjectKind.keyword_mem (kind : ObjectKind) : kind.keyword ∈ objectKeywords := by
  cases kind <;> decide

theorem ObjectKind.keyword_ne (kind : ObjectKind) :
    kind.keyword ≠ "enum" ∧ kind.keyword ≠ "union" ∧ kind.keyword ≠ "scalar" := by
  cases kind <;> decide

theorem AreKinds.not_mem (hkinds : AreKinds kinds) (hname : name ∉ keywords) : name ∉ kinds :=
  fun h => hname (List.dropLast_subset _ (hkinds name h))

theorem Loose.quiet {between : List Char} (h : Loose between tokens) (hkinds : AreKinds kinds) :
    Quiet r kinds (plain tokens) :=
  quiet_of_words fun _ hname => hkinds.not_mem (h _ hname)

theorem TypeExpr.word_mem_tokens {type : TypeExpr} (h : Token.word name ∈ type.tokens) :
    name = type.name := by
  induction type with
  | named other required => cases required <;> simpa [tokens, mark, TypeExpr.name] using h
  | list inner required ih => cases required <;> exact ih (by simpa [tokens, mark] using h)

theorem TypeExpr.quiet {type : TypeExpr} (h : type.name ∉ keywords) (hkinds : AreKinds kinds) :
    Quiet r kinds (plain type.tokens) :=
  quiet_of_words fun _ hname => hkinds.not_mem (word_mem_tokens hname ▸ h)

theorem quiet_commas (n : Nat) : Quiet r kinds (plain (commas n)) :=
  quiet_of_words fun _ hname => by cases List.eq_of_mem_replicate hname

/-- Nothing is found in any quoted text among some lexemes. -/
def AllHushed (r : Recogniser α) (lexemes : List Lexeme) : Prop :=
  ∀ content, .quoted content ∈ lexemes → Hushed r content

theorem AllHushed.mono (h : AllHushed r more) (hsubset : lexemes ⊆ more) : AllHushed r lexemes :=
  fun content hmem => h content (hsubset hmem)

theorem AllHushed.of_flatMap {γ : Type} {items : List γ} {lexemesOf : γ → List Lexeme}
    (h : AllHushed r (items.flatMap lexemesOf)) {item : γ} (hitem : item ∈ items) :
    AllHushed r (lexemesOf item) :=
  h.mono fun _ hmem => List.mem_flatMap.2 ⟨item, hitem, hmem⟩

theorem allHushed_append :
    AllHushed r (lexemes ++ more) ↔ AllHushed r lexemes ∧ AllHushed r more := by
  simp only [AllHushed, List.mem_append, or_imp, forall_and]

mutual

/-- No declaration begins in a value. -/
theorem Literal.quiet (l : Literal) (h : l.Allowed) (hushed : AllHushed r l.lexemes)
    (hkinds : AreKinds kinds) : Quiet r kinds l.lexemes := by
  cases l with
  | numeral digits => exact .numeral .nil
  | name name => exact .word (hkinds.not_mem h) .nil
  | text content => exact .quoted (hushed content (List.mem_singleton_self _)) .nil
  | list items =>
    have hinner := items.quiet h (hushed.mono (by simp [Literal.lexemes])) hkinds
    exact .sign (hinner.append (.sign .nil))
  | object members =>
    have hinner := members.quiet h (hushed.mono (by simp [Literal.lexemes])) hkinds
    exact .sign (hinner.append (.sign .nil))

theorem Items.quiet (items : Items) (h : items.Allowed) (hushed : AllHushed r items.lexemes)
    (hkinds : AreKinds kinds) : Quiet r kinds items.lexemes := by
  cases items with
  | nil => exact .nil
  | cons item n rest =>
    obtain ⟨hitem, hbehind⟩ := allHushed_append.1 hushed
    exact (item.quiet h.1 hitem hkinds).append ((quiet_commas n).append
      (rest.quiet h.2 (allHushed_append.1 hbehind).2 hkinds))

theorem Members.quiet (members : Members) (h : members.Allowed)
    (hushed : AllHushed r members.lexemes) (hkinds : AreKinds kinds) :
    Quiet r kinds members.lexemes := by
  cases members with
  | nil => exact .nil
  | cons name value n rest =>
    have hinner : AllHushed r (value.lexemes ++ (plain (commas n) ++ rest.lexemes)) :=
      hushed.mono (by simp [Members.lexemes])
    obtain ⟨hvalue, hbehind⟩ := allHushed_append.1 hinner
    exact .before ((value.quiet h.1 hvalue hkinds).append ((quiet_commas n).append
      (rest.quiet h.2 (allHushed_append.1 hbehind).2 hkinds)))

end

/-- No declaration begins in an argument, whatever its name. -/
theorem NotedArgument.quiet {a : NotedArgument} (h : a.Allowed) (hushed : AllHushed r a.lexemes)
    (hkinds : AreKinds kinds) : Quiet r kinds a.lexemes := by
  have hdefault : Quiet r kinds (defaultLexemes a.default) := by
    cases heq : a.default with
    | none => exact .nil
    | some l =>
      refine .sign (l.quiet (h.2 l heq) (hushed.mono fun ℓ hℓ => ?_) hkinds)
      simp [lexemes, heq, defaultLexemes, hℓ]
  exact .before ((TypeExpr.quiet h.1 hkinds).append (hdefault.append (quiet_commas _)))

/-- No declaration begins in a field, whatever its name. -/
theorem NotedField.quiet {f : NotedField} (h : f.Allowed) (hushed : AllHushed r f.lexemes)
    (hkinds : AreKinds kinds) : Quiet r kinds f.lexemes := by
  have hrest : Quiet r kinds (plain f.type.tokens ++ plain (SchemaSyntax.commas f.commas)) :=
    (TypeExpr.quiet h.1 hkinds).append (quiet_commas _)
  have hdescription : Quiet r kinds (descriptionLexemes f.description) := by
    cases heq : f.description with
    | none => exact .nil
    | some content =>
      exact .quoted (hushed content (by simp [lexemes, heq, descriptionLexemes])) .nil
  refine hdescription.append ?_
  cases harguments : f.arguments with
  | none => exact .before hrest
  | some arguments =>
    have hinner : AllHushed r (arguments.flatMap NotedArgument.lexemes) :=
      hushed.mono fun ℓ hmem => by simp [lexemes, harguments, argumentLexemes, hmem]
    have hall : Quiet r kinds (arguments.flatMap NotedArgument.lexemes) :=
      quiet_flatMap fun a ha =>
        NotedArgument.quiet (h.2 arguments harguments a ha) (hinner.of_flatMap ha) hkinds
    exact .before ((hall.append (.sign .nil)).append (.sign hrest))

/-- Behind its keyword a definition without notes is quiet. -/
theorem Definition.quiet_tail {d : Definition} (h : d.Allowed) (hkinds : AreKinds kinds)
    (hplain : d.object? = none) : Quiet r kinds (plain d.tail) := by
  cases d with
  | object kind name interfaces fields => cases hplain
  | enum name braces values =>
    obtain ⟨hname, hvalues⟩ := h
    have hquiet : Quiet r kinds (plain values) := hvalues.quiet hkinds
    cases braces with
    | true =>
      have hbraces : Quiet r kinds (plain (values ++ [.sign '\x7d'])) := by
        rw [plain_append]
        exact hquiet.append (.sign .nil)
      exact .word (hkinds.not_mem hname) (.sign hbraces)
    | false => exact .word (hkinds.not_mem hname) (.sign hquiet)
  | union name colon bar first others =>
    obtain ⟨hname, hfirst, hothers⟩ := h
    have halternatives : Quiet r kinds (plain (.word first :: others)) :=
      .word (hkinds.not_mem hfirst) (hothers.quiet hkinds)
    cases bar with
    | true => exact .word (hkinds.not_mem hname) (.sign (.sign halternatives))
    | false => exact .word (hkinds.not_mem hname) (.sign halternatives)
  | scalar name => exact .word (hkinds.not_mem h) .nil

/-- Behind its keyword a definition is quiet. -/
theorem NotedDefinition.quiet_tail {d : NotedDefinition} (h : d.Allowed)
    (hushed : AllHushed r d.lexemes) (hkinds : AreKinds kinds) : Quiet r kinds d.tail := by
  cases d with
  | object kind name interfaces fields =>
    obtain ⟨⟨hname, hinterfaces, -⟩, hfields⟩ := h
    have hinner : AllHushed r (fields.flatMap NotedField.lexemes) :=
      hushed.mono fun ℓ hmem => by simp [lexemes, hmem]
    have hbody : Quiet r kinds (fields.flatMap NotedField.lexemes ++ [.sign '\x7d']) :=
      (quiet_flatMap fun f hf => NotedField.quiet (hfields f hf) (hinner.of_flatMap hf)
        hkinds).append (.sign .nil)
    cases interfaces with
    | none => exact .word (hkinds.not_mem hname) (.sign hbody)
    | some interfaces =>
      obtain ⟨first, others⟩ := interfaces
      obtain ⟨hfirst, hothers⟩ := hinterfaces first others rfl
      -- the one keyword inside a definition begins a list, and no definition
      have himplements : "implements" ∉ kinds := fun hmem =>
        absurd (hkinds _ hmem) (by decide)
      exact .word (hkinds.not_mem hname) (.word himplements
        (.word (hkinds.not_mem hfirst) ((hothers.quiet hkinds).append (.sign hbody))))
  | other d hplain =>
    have htail : (NotedDefinition.other d hplain).tail = plain d.tail := by
      rw [tail, lexemes, d.tokens_eq]
      rfl
    rw [htail]
    exact Definition.quiet_tail h.1 hkinds hplain

/-- **A definition is quiet for the other kinds.** -/
theorem NotedDefinition.quiet {d : NotedDefinition} (h : d.Allowed)
    (hushed : AllHushed r d.lexemes) (hkinds : AreKinds kinds) (hother : d.bare.keyword ∉ kinds) :
    Quiet r kinds d.lexemes := by
  rw [d.lexemes_eq]
  exact .word hother (NotedDefinition.quiet_tail h hushed hkinds)

/-! ### The definitions of one kind -/

variable {definitions : List NotedDefinition} {d : NotedDefinition}

/-- What is found from the beginning of a definition on: the definition, if it is of the kind, and
what follows it. -/
def Finds (r : Recogniser α) (f : α → β) (found? : NotedDefinition → Option β)
    (d : NotedDefinition) : Prop :=
  ∀ more cs, Spelled [] (d.lexemes ++ more) cs → ∃ rest, Spelled [] more rest ∧
    (r.scan false cs).map f = (found? d).toList ++ (r.scan false rest).map f

/-- Nothing is found in the definitions of other kinds. -/
theorem BeginsWith.finds_other (hr : BeginsWith r kinds) {f : α → β}
    {found? : NotedDefinition → Option β} (h : d.Allowed) (hushed : AllHushed r d.lexemes)
    (hother : d.bare.keyword ∉ kinds) (hnone : found? d = none) : Finds r f found? d := by
  intro more cs hcs
  obtain ⟨rest, hrest, hscan⟩ :=
    hr.scan_quiet (NotedDefinition.quiet h hushed hr.areKinds hother) hcs
  refine ⟨rest, hrest, ?_⟩
  rw [hscan, hnone]
  rfl

/-- A definition is found that is read from its keyword on, up to quiet lexemes. -/
theorem BeginsWith.finds_own (hr : BeginsWith r kinds) {f : α → β}
    {found? : NotedDefinition → Option β}
    (hread : ∀ more rest, Spelled [] (d.tail ++ more) rest → Ends rest → ∃ found left after,
      r.read? (d.bare.keyword.toList ++ rest) = some (found, after) ∧
        found? d = some (f found) ∧ Quiet r kinds left ∧ Spelled [] (left ++ more) after) :
    Finds r f found? d := by
  intro more cs hcs
  rw [d.lexemes_eq] at hcs
  obtain ⟨rest, hnext, -, hends, hrest⟩ := hcs.next_word
  obtain ⟨found, left, after, hfound, hown, hleft, hafter⟩ := hread more rest hrest hends
  obtain ⟨rest', hrest', hscan⟩ := hr.scan_quiet hleft hafter
  refine ⟨rest', hrest', ?_⟩
  rw [← hr.scan_dropBlanks cs, hnext, r.scan_of_read?_eq_some hfound, List.map_cons, hown, hscan]
  rfl

/-- In a whole text the definitions of the kind are found, in order. -/
theorem BeginsWith.scan_eq (hr : BeginsWith r kinds) {f : α → β}
    {found? : NotedDefinition → Option β} (h : Spelled [] (lexemesOf definitions) cs)
    (hfinds : ∀ d ∈ definitions, Finds r f found? d) :
    (r.scan false cs).map f = definitions.filterMap found? := by
  induction definitions generalizing cs with
  | nil =>
    rw [← hr.scan_dropBlanks cs, h.dropBlanks_nil, r.scan_nil]
    rfl
  | cons d definitions ih =>
    obtain ⟨hd, hdefinitions⟩ := List.forall_mem_cons.1 hfinds
    obtain ⟨rest, hrest, hscan⟩ := hd _ cs h
    rw [hscan, ih hrest hdefinitions, List.filterMap_cons]
    cases found? d <;> rfl

end SchemaSyntax

end GraphWalk
