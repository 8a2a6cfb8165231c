import GraphWalk.Proofs.Schema.Kinds

/-!
# Declarations in quoted texts

The recognisers of enums, unions and scalars look into quoted texts as well, but none reads
past a quote: no part of their declarations has one.  So what they find in a quoted text is
told from that text alone, and what stands behind it is looked through as if it stood there
by itself.

## Main definitions

* `StopsAtQuote` — a reader that does not read past a quote.
* `Silent` — a text in which no enum, union or scalar is declared.
* `Bodiless` — a text in which no type is declared, whatever follows.

## Main results

* `enums_stopsAtQuote`, `unions_stopsAtQuote`, `scalars_stopsAtQuote` — the readers of three
  kinds.
* `StopsAtQuote.scan_quote` — **what stands before a quote and behind it is found apart.**
* `allHushed_of_silent` — where nothing is declared nothing is found.
* `Bodiless.hushed` — the same for types, if no body is taken from behind the quote.
-/

namespace GraphWalk

namespace SchemaSyntax

open Text Declaration

variable {α β : Type} {cs rest : List Char} {c : Char} {keyword : String} {word : List Char}

/-! ### Readers that stop at a quote -/

/-- A reader finds before a quote what it would find if the text ended there. -/
def StopsAtQuote (read? : List Char → Option (α × List Char)) : Prop :=
  ∀ cs rest, read? (cs ++ '"' :: rest)
    = (read? cs).map fun (found, left) => (found, left ++ '"' :: rest)

theorem after?_quote (hword : '"' ∉ word) (cs rest : List Char) :
    after? word (cs ++ '"' :: rest) = (after? word cs).map (· ++ '"' :: rest) := by
  induction word generalizing cs with
  | nil => rw [after?_nil, after?_nil, Option.map_some]
  | cons w word ih =>
    rw [List.mem_cons, not_or] at hword
    obtain ⟨hw, hword⟩ := hword
    cases cs with
    | nil => exact if_neg (Ne.symm hw)
    | cons c cs =>
      simp only [List.cons_append, after?]
      split
      · exact ih hword cs
      · rfl

theorem dropBlanks_quote (cs rest : List Char) :
    dropBlanks (cs ++ '"' :: rest) = dropBlanks cs ++ '"' :: rest := by
  induction cs with
  | nil => exact dropBlanks_cons_of_not_blank not_isWord_quote.2.2 rest
  | cons c cs ih =>
    cases hc : isBlank c with
    | true => rw [List.cons_append, dropBlanks_cons_of_blank hc, dropBlanks_cons_of_blank hc, ih]
    | false =>
      rw [List.cons_append, dropBlanks_cons_of_not_blank hc, dropBlanks_cons_of_not_blank hc]
      rfl

theorem afterKeyword?_quote (hkeyword : IsWord keyword) (cs rest : List Char) :
    afterKeyword? keyword (cs ++ '"' :: rest)
      = (afterKeyword? keyword cs).map (· ++ '"' :: rest) := by
  have hquote : '"' ∉ keyword.toList := fun hmem => absurd (hkeyword.2 _ hmem) (by decide)
  rw [afterKeyword?, afterKeyword?, after?_quote hquote]
  cases after? keyword.toList cs with
  | none => rfl
  | some left =>
    cases left with
    | nil => exact if_neg (by simp [not_isWord_quote.2.2])
    | cons c left =>
      simp only [Option.map_some, List.cons_append]
      split
      · rw [dropBlanks_quote, Option.map_some]
      · rfl

theorem word?_quote : StopsAtQuote word? := by
  intro cs rest
  have hquote : Text.isWord '"' = false := not_isWord_quote.1
  have hspan : (cs ++ '"' :: rest).takeWhile Text.isWord = cs.takeWhile Text.isWord ∧
      (cs ++ '"' :: rest).dropWhile Text.isWord = cs.dropWhile Text.isWord ++ '"' :: rest := by
    induction cs with
    | nil => exact ⟨List.takeWhile_cons_of_neg (by simp [hquote]),
        List.dropWhile_cons_of_neg (by simp [hquote])⟩
    | cons c cs ih =>
      cases hc : Text.isWord c with
      | true => simp [hc, ih.1, ih.2]
      | false => simp [hc]
  rw [word?, word?, hspan.1, hspan.2]
  dsimp only
  split <;> rfl

theorem named?_quote (hkeyword : IsWord keyword) : StopsAtQuote (named? keyword) := by
  intro cs rest
  rw [named?, named?, afterKeyword?_quote hkeyword]
  cases afterKeyword? keyword cs with
  | none => rfl
  | some left => exact word?_quote left rest

theorem afterOneOf?_quote {allowed : List Char} (hallowed : '"' ∉ allowed) (cs rest : List Char) :
    afterOneOf? allowed (cs ++ '"' :: rest)
      = (afterOneOf? allowed cs).map (· ++ '"' :: rest) := by
  cases cs with
  | nil => exact if_neg (by simpa using hallowed)
  | cons c cs =>
    simp only [List.cons_append, afterOneOf?]
    split <;> rfl

theorem dropChar_quote (hc : '"' ≠ c) (cs rest : List Char) :
    FieldDecl.dropChar c (cs ++ '"' :: rest) = FieldDecl.dropChar c cs ++ '"' :: rest := by
  cases cs with
  | nil => exact if_neg hc
  | cons d cs =>
    simp only [List.cons_append, FieldDecl.dropChar]
    split <;> rfl

theorem enums_stopsAtQuote : StopsAtQuote enums.read? := by
  intro cs rest
  show enum? _ = (enum? cs).map _
  rw [enum?, enum?, named?_quote (isWord_of_mem_keywords (by decide))]
  cases named? "enum" cs with
  | none => rfl
  | some found =>
    obtain ⟨name, left⟩ := found
    simp only [Option.map_some, Option.bind_some, dropBlanks_quote]
    rw [afterOneOf?_quote (by decide), Option.map_map, Option.map_map]
    rfl

theorem unions_stopsAtQuote : StopsAtQuote unions.read? := by
  intro cs rest
  show union? _ = (union? cs).map _
  rw [union?, union?, named?_quote (isWord_of_mem_keywords (by decide))]
  cases named? "union" cs with
  | none => rfl
  | some found =>
    obtain ⟨name, left⟩ := found
    simp only [Option.map_some, Option.bind_some, dropBlanks_quote]
    rw [afterOneOf?_quote (by decide)]
    cases afterOneOf? [':', '='] (dropBlanks left) with
    | none => rfl
    | some inner =>
      simp only [Option.map_some, Option.bind_some, dropBlanks_quote]
      rw [dropChar_quote (by decide), dropBlanks_quote, word?_quote, Option.map_map, Option.map_map]
      rfl

theorem scalars_stopsAtQuote : StopsAtQuote scalars.read? :=
  named?_quote (isWord_of_mem_keywords (by decide))

/-! ### Looking through a quoted text -/

variable {r : Recogniser α}

theorem StopsAtQuote.read?_quote (hr : StopsAtQuote r.read?) (rest : List Char) :
    r.read? ('"' :: rest) = none := by
  have hnil : r.read? [] = none := by
    cases hread : r.read? [] with
    | none => rfl
    | some found => exact absurd (r.shortens hread) (Nat.not_lt_zero _)
  have hquote := hr [] rest
  rw [hnil] at hquote
  exact hquote

/-- **What stands before a quote and behind it is found apart.** -/
theorem StopsAtQuote.scan_quote (hr : StopsAtQuote r.read?) (inWord : Bool) (cs rest : List Char) :
    r.scan inWord (cs ++ '"' :: rest) = r.scan inWord cs ++ r.scan false rest := by
  fun_induction r.scan inWord cs with
  | case1 inWord =>
    cases inWord with
    | true => rw [List.nil_append, List.nil_append, r.scan_inWord, not_isWord_quote.1]
    | false =>
      rw [List.nil_append, List.nil_append, r.scan_of_read?_eq_none (hr.read?_quote rest),
        not_isWord_quote.1]
  | case2 c cs ih => rw [List.cons_append, r.scan_inWord, ih]
  | case3 inWord c cs hnot found left hread hlen ih =>
    rw [Bool.eq_false_iff.2 hnot] at *
    have hquote := hr (c :: cs) rest
    rw [hread, Option.map_some] at hquote
    rw [r.scan_of_read?_eq_some hquote, ih, List.cons_append]
  | case4 inWord c cs hnot hread ih =>
    rw [Bool.eq_false_iff.2 hnot]
    have hquote := hr (c :: cs) rest
    rw [hread, Option.map_none, List.cons_append] at hquote
    rw [List.cons_append, r.scan_of_read?_eq_none hquote, ih]

/-- A text in which no enum, union or scalar is declared. -/
structure Silent (cs : List Char) : Prop where
  enums : enums.scan false cs = []
  unions : unions.scan false cs = []
  scalars : scalars.scan false cs = []

instance (cs : List Char) : Decidable (Silent cs) :=
  decidable_of_iff (enums.scan false cs = [] ∧ unions.scan false cs = [] ∧
      scalars.scan false cs = [])
    ⟨fun ⟨enums, unions, scalars⟩ => ⟨enums, unions, scalars⟩, fun h => ⟨h.1, h.2, h.3⟩⟩

theorem StopsAtQuote.hushed (hr : StopsAtQuote r.read?) {content : List Char}
    (h : r.scan false content = []) : Hushed r content := by
  intro rest
  rw [hr.scan_quote, h, List.nil_append]

variable {lexemes : List Lexeme}

/-- **Where nothing is declared nothing is found.** -/
theorem allHushed_of_silent (h : ∀ content, .quoted content ∈ lexemes → Silent content) :
    AllHushed enums lexemes ∧ AllHushed unions lexemes ∧ AllHushed scalars lexemes :=
  ⟨fun content hmem => enums_stopsAtQuote.hushed (h content hmem).enums,
    fun content hmem => unions_stopsAtQuote.hushed (h content hmem).unions,
    fun content hmem => scalars_stopsAtQuote.hushed (h content hmem).scalars⟩

/-! ### Types in a quoted text -/

/-- No type is declared in a text, not even if a body follows behind a quote. -/
def Bodiless (cs : List Char) : Prop := objectTypes.scan false (cs ++ ['"', '\x7b', '\x7d']) = []

instance (cs : List Char) : Decidable (Bodiless cs) :=
  inferInstanceAs (Decidable (objectTypes.scan false _ = []))

/-- The name behind one of some keywords is found before a quote. -/
theorem findSome?_quote {kinds : List String} (hkinds : ∀ keyword ∈ kinds, IsWord keyword) :
    StopsAtQuote fun cs => kinds.findSome? fun keyword => named? keyword cs := by
  intro cs rest
  induction kinds with
  | nil => rfl
  | cons keyword kinds ih =>
    obtain ⟨hkeyword, hkinds⟩ := List.forall_mem_cons.1 hkinds
    simp only [List.findSome?_cons, named?_quote hkeyword cs rest]
    cases named? keyword cs with
    | none => exact ih hkinds
    | some found => rfl

/-- Before a closing brace there is a body. -/
theorem isSome_body? (h : '\x7d' ∈ cs) : (body? cs).isSome := by
  obtain ⟨run, rest, rfl, hrun⟩ := List.eq_append_cons_of_mem h
  have hspan := span_until (fun d hd => ne_of_mem_of_not_mem hd hrun) rest
  rw [body?, hspan.2]
  rfl

/-- If a quote and a body behind a text make no declaration of it, nothing behind a quote does. -/
theorem objectType?_quote (h : objectType? (cs ++ ['"', '\x7b', '\x7d']) = none)
    (rest : List Char) : objectType? (cs ++ '"' :: rest) = none := by
  have hname := findSome?_quote objectTypes_beginsWith.words cs
  have himplements : IsWord "implements" := isWord_of_mem_keywords (by decide)
  simp only [objectType?, hname] at h ⊢
  cases hfound : objectKeywords.findSome? fun keyword => named? keyword cs with
  | none => rfl
  | some found =>
    obtain ⟨name, left⟩ := found
    simp only [hfound, Option.map_some, Option.bind_some, afterHeader?, dropBlanks_quote,
      afterKeyword?_quote himplements] at h ⊢
    cases hinterfaces : afterKeyword? "implements" (dropBlanks left) with
    | none =>
      have hopen : '"' ∉ ['\x7b'] := by decide
      simp only [hinterfaces, Option.map_none, afterOneOf?_quote hopen] at h ⊢
      cases hinner : afterOneOf? ['\x7b'] (dropBlanks left) with
      | none => rfl
      | some inner =>
        have hbody := isSome_body? (by simp : '\x7d' ∈ inner ++ ['"', '\x7b', '\x7d'])
        obtain ⟨body, hbody⟩ := Option.isSome_iff_exists.1 hbody
        rw [hinner, Option.map_some, Option.bind_some, hbody] at h
        cases h
    | some interfaces =>
      -- with a list of interfaces any body would do
      have hmem : '\x7b' ∈ interfaces ++ ['"', '\x7b'] := by simp
      obtain ⟨run, behind, heq, hrun⟩ := List.eq_append_cons_of_mem hmem
      have hsplit : interfaces ++ ['"', '\x7b', '\x7d']
          = run ++ '\x7b' :: (behind ++ ['\x7d']) := by
        have happend := congrArg (· ++ ['\x7d']) heq
        simpa using happend
      have hspan := span_until (fun d hd => ne_of_mem_of_not_mem hd hrun) (behind ++ ['\x7d'])
      have hbody := isSome_body? (by simp : '\x7d' ∈ behind ++ ['\x7d'])
      obtain ⟨body, hbody⟩ := Option.isSome_iff_exists.1 hbody
      simp only [hinterfaces, Option.map_some, hsplit, hspan.2, afterOneOf?] at h
      rw [if_pos (by decide), Option.bind_some, hbody] at h
      cases h

theorem read?_eq_none_of_scan (h : r.scan false cs = []) : r.read? cs = none := by
  cases hread : r.read? cs with
  | none => rfl
  | some found =>
    rw [r.scan_of_read?_eq_some hread] at h
    cases h

/-- Where nothing is found nothing is found behind a character that belongs to no word. -/
theorem scan_behind {run : List Char} {inWord : Bool} (hc : Text.isWord c = false)
    (h : r.scan inWord (run ++ c :: rest) = []) : r.scan false rest = [] := by
  have hpass : ∀ {inWord d cs}, r.scan inWord (d :: cs) = [] → r.scan (Text.isWord d) cs = [] := by
    intro inWord d cs h
    cases inWord with
    | true => rwa [r.scan_inWord] at h
    | false => rwa [r.scan_of_read?_eq_none (read?_eq_none_of_scan h)] at h
  induction run generalizing inWord with
  | nil =>
    have hrest := hpass h
    rwa [hc] at hrest
  | cons d run ih => exact ih (hpass h)

/-- **Where no type is declared none is found**, whatever follows. -/
theorem Bodiless.hushed (h : Bodiless cs) : Hushed objectTypes cs := by
  intro rest
  have hquote : ∀ inWord, objectTypes.scan inWord ('"' :: rest) = objectTypes.scan false rest := by
    intro inWord
    cases inWord with
    | true => rw [objectTypes.scan_inWord, not_isWord_quote.1]
    | false => exact objectTypes_beginsWith.scan_skip not_isWord_quote.1 rest
  suffices hall : ∀ inWord, objectTypes.scan inWord (cs ++ ['"', '\x7b', '\x7d']) = [] →
      objectTypes.scan inWord (cs ++ '"' :: rest) = objectTypes.scan false rest from hall false h
  clear h
  induction cs with
  | nil => exact fun inWord _ => hquote inWord
  | cons c cs ih =>
    intro inWord h
    cases inWord with
    | true =>
      rw [List.cons_append, objectTypes.scan_inWord] at h ⊢
      exact ih _ h
    | false =>
      have hread := read?_eq_none_of_scan h
      have hread' := objectType?_quote hread rest
      rw [List.cons_append] at h hread hread' ⊢
      rw [objectTypes.scan_of_read?_eq_none hread] at h
      rw [objectTypes.scan_of_read?_eq_none hread']
      exact ih _ h

/-- The part of such a text that stands behind a closing brace is another. -/
theorem Bodiless.behind {run : List Char} (h : Bodiless (run ++ '\x7d' :: cs)) : Bodiless cs := by
  rw [Bodiless, List.append_assoc] at h
  exact scan_behind (by decide) h

end SchemaSyntax

end GraphWalk
