import GraphWalk.Proofs.Schema.FieldSteps

/-!
# Brackets and default values

Arguments stand in parentheses, and lists and objects among default values in brackets and
braces.  The scanner finds the closing bracket by counting those of its kind, and goes
around quoted texts.  So it finds the right one if every bracket of the kind is closed, and
in written values all are.

## Main definitions

* `Balanced` — lexemes in which every bracket of a kind is closed.
* `PassedOver` — a text that the scanner passes over on its way to a closing bracket.

## Main results

* `Balanced.passedOver` — **balanced lexemes are passed over.**
* `Spelled.span_bracket` — what stands between two brackets is cut out.
* `Spelled.after_default` — **what follows a default value**, whatever stands in it.
-/

namespace GraphWalk

namespace SchemaSyntax

open Text FieldDecl

variable {lexemes more : List Lexeme} {ℓ : Lexeme} {cs rest tail : List Char} {c : Char}
variable {name : String}

/-! ### Brackets -/

/-- The kinds of brackets. -/
def brackets : List (Char × Char) := [('(', ')'), ('[', ']'), ('\x7b', '\x7d')]

/-- Lexemes in which every bracket of a kind is closed. -/
inductive Balanced (kind : Char × Char) : List Lexeme → Prop
  /-- The end. -/
  | nil : Balanced kind []
  /-- A lexeme that is no bracket of the kind. -/
  | other {ℓ : Lexeme} {lexemes : List Lexeme} (opening : ℓ ≠ .sign kind.1)
      (closing : ℓ ≠ .sign kind.2) (rest : Balanced kind lexemes) : Balanced kind (ℓ :: lexemes)
  /-- A bracket that is opened and closed. -/
  | bracket {inner lexemes : List Lexeme} (inside : Balanced kind inner)
      (rest : Balanced kind lexemes) :
      Balanced kind (.sign kind.1 :: (inner ++ .sign kind.2 :: lexemes))

variable {kind : Char × Char}

theorem Balanced.append (h : Balanced kind lexemes) (hmore : Balanced kind more) :
    Balanced kind (lexemes ++ more) := by
  induction h with
  | nil => exact hmore
  | other opening closing _ ih => exact .other opening closing ih
  | bracket inside _ _ ih =>
    rw [List.cons_append, List.append_assoc, List.cons_append]
    exact .bracket inside ih

theorem balanced_of_not_mem (hopening : .sign kind.1 ∉ lexemes)
    (hclosing : .sign kind.2 ∉ lexemes) :
    Balanced kind lexemes := by
  induction lexemes with
  | nil => exact .nil
  | cons ℓ lexemes ih =>
    exact .other (List.ne_of_not_mem_cons hopening).symm (List.ne_of_not_mem_cons hclosing).symm
      (ih (List.not_mem_of_not_mem_cons hopening) (List.not_mem_of_not_mem_cons hclosing))

theorem balanced_flatMap {α : Type} {items : List α} {lexemesOf : α → List Lexeme}
    (h : ∀ item ∈ items, Balanced kind (lexemesOf item)) :
    Balanced kind (items.flatMap lexemesOf) := by
  induction items with
  | nil => exact .nil
  | cons item items ih =>
    obtain ⟨hitem, hitems⟩ := List.forall_mem_cons.1 h
    exact hitem.append (ih hitems)

/-- Brackets around balanced lexemes, of the kind or not. -/
theorem Balanced.enclosed {other : Char × Char} (h : Balanced kind lexemes)
    (hkind : kind ∈ brackets) (hother : other ∈ brackets) :
    Balanced kind (.sign other.1 :: (lexemes ++ [.sign other.2])) := by
  have hapart : ∀ kind ∈ brackets, ∀ other ∈ brackets, kind ≠ other →
      other.1 ≠ kind.1 ∧ other.1 ≠ kind.2 ∧ other.2 ≠ kind.1 ∧ other.2 ≠ kind.2 := by
    decide
  by_cases heq : kind = other
  · subst heq
    exact .bracket h .nil
  · obtain ⟨h11, h12, h21, h22⟩ := hapart kind hkind other hother heq
    have hsign : ∀ {c d : Char}, c ≠ d → Lexeme.sign c ≠ .sign d := fun hne heq =>
      hne (Lexeme.sign.inj heq)
    exact .other (hsign h11) (hsign h12) (h.append (.other (hsign h21) (hsign h22) .nil))

/-- The text is passed over on the way to a closing bracket, however many more are open. -/
def PassedOver (kind : Char × Char) (run : List Char) : Prop :=
  ∀ depth rest, spanBalanced kind.1 kind.2 depth (run ++ rest)
    = (run ++ (spanBalanced kind.1 kind.2 depth rest).1,
        (spanBalanced kind.1 kind.2 depth rest).2)

theorem PassedOver.append {run others : List Char} (h : PassedOver kind run)
    (hothers : PassedOver kind others) : PassedOver kind (run ++ others) := by
  intro depth rest
  rw [List.append_assoc, h, hothers]
  simp only [List.append_assoc]

/-- A run without quotes and brackets of the kind is passed over. -/
theorem passedOver_of_ne {run : List Char}
    (hrun : ∀ c ∈ run, c ≠ '"' ∧ c ≠ kind.1 ∧ c ≠ kind.2) : PassedOver kind run := by
  intro depth rest
  induction run with
  | nil => rfl
  | cons c run ih =>
    obtain ⟨⟨hquote, hopening, hclosing⟩, hrun⟩ := List.forall_mem_cons.1 hrun
    rw [List.cons_append, spanBalanced.eq_def]
    dsimp only
    rw [if_neg hquote, if_neg hopening, if_neg hclosing, ih hrun]
    rfl

/-- A quoted text is passed over, whatever stands in it. -/
theorem passedOver_quoted {content : List Char} (h : isQuotable content = true) :
    PassedOver kind (Lexeme.quoted content).chars := by
  intro depth rest
  rw [Lexeme.chars_quoted_append, spanBalanced.eq_def]
  dsimp only
  rw [if_pos rfl, spanQuoted_eq h]
  simp only [Lexeme.chars, List.cons_append, List.append_assoc]

theorem brackets_apart (hkind : kind ∈ brackets) :
    kind.1 ≠ '"' ∧ kind.2 ≠ '"' ∧ kind.2 ≠ kind.1 ∧ isBlank kind.1 = false ∧
      isBlank kind.2 = false ∧ kind.1 ∈ signs ∧ kind.2 ∈ signs := by
  have hall : ∀ kind ∈ brackets, kind.1 ≠ '"' ∧ kind.2 ≠ '"' ∧ kind.2 ≠ kind.1 ∧
      isBlank kind.1 = false ∧ isBlank kind.2 = false ∧ kind.1 ∈ signs ∧ kind.2 ∈ signs := by
    decide
  exact hall kind hkind

/-- Behind what is passed over stands the closing bracket. -/
theorem PassedOver.span_closed {inner : List Char} (h : PassedOver kind inner)
    (hkind : kind ∈ brackets) (rest : List Char) :
    spanBalanced kind.1 kind.2 0 (inner ++ kind.2 :: rest) = (inner, rest) := by
  obtain ⟨-, hquote, hopening, -⟩ := brackets_apart hkind
  have hclose : spanBalanced kind.1 kind.2 0 (kind.2 :: rest) = ([], rest) := by
    rw [spanBalanced.eq_def]
    dsimp only
    rw [if_neg hquote, if_neg hopening, if_pos rfl]
  rw [h, hclose, List.append_nil]

/-- A bracket that is opened and closed is passed over with what stands in it: the opening one goes
one level down, and the closing one comes back. -/
theorem PassedOver.enclosed {inner : List Char} (h : PassedOver kind inner)
    (hkind : kind ∈ brackets) : PassedOver kind (kind.1 :: (inner ++ [kind.2])) := by
  intro depth rest
  obtain ⟨hfirst, hquote, hopening, -⟩ := brackets_apart hkind
  have hopen : ∀ text, spanBalanced kind.1 kind.2 depth (kind.1 :: text)
      = (kind.1 :: (spanBalanced kind.1 kind.2 (depth + 1) text).1,
          (spanBalanced kind.1 kind.2 (depth + 1) text).2) := by
    intro text
    rw [spanBalanced.eq_def]
    dsimp only
    rw [if_neg hfirst, if_pos rfl]
  have hclose : ∀ text, spanBalanced kind.1 kind.2 (depth + 1) (kind.2 :: text)
      = (kind.2 :: (spanBalanced kind.1 kind.2 depth text).1,
          (spanBalanced kind.1 kind.2 depth text).2) := by
    intro text
    rw [spanBalanced.eq_def]
    dsimp only
    rw [if_neg hquote, if_neg hopening, if_pos rfl]
  rw [List.cons_append, List.append_assoc, List.singleton_append, hopen, h, hclose]
  simp only [List.cons_append, List.append_assoc, List.nil_append]

/-- No quote and no bracket stands in a lexeme that is neither quoted nor a bracket. -/
theorem Lexeme.Valid.ne_of_mem (h : ℓ.Valid) (hkind : kind ∈ brackets)
    (hquoted : ∀ content, ℓ ≠ .quoted content) (hopening : ℓ ≠ .sign kind.1)
    (hclosing : ℓ ≠ .sign kind.2) : ∀ c ∈ ℓ.chars, c ≠ '"' ∧ c ≠ kind.1 ∧ c ≠ kind.2 := by
  obtain ⟨-, -, -, -, -, hfirst, hsecond⟩ := brackets_apart hkind
  have hlacks : ∀ c, ℓ ≠ .sign c → ℓ.Lacks c := by
    intro c hsign
    cases ℓ with
    | sign d => exact fun heq => hsign (congrArg _ heq.symm)
    | quoted content => exact absurd rfl (hquoted content)
    | _ => trivial
  intro c hc
  refine ⟨?_, ?_, ?_⟩
  · rintro rfl
    exact h.not_mem_of_plain (by decide) (by decide) (by decide) hquoted hc
  · rintro rfl
    exact h.not_mem_chars hfirst (hlacks _ hopening) hc
  · rintro rfl
    exact h.not_mem_chars hsecond (hlacks _ hclosing) hc

theorem passedOver_gap {gap : List Char} (hgap : IsGap gap) (hkind : kind ∈ brackets) :
    PassedOver kind gap := by
  obtain ⟨-, -, -, hfirst, hsecond, -⟩ := brackets_apart hkind
  refine passedOver_of_ne fun c hc => ?_
  have hblank := hgap c hc
  refine ⟨?_, ?_, ?_⟩
  · rintro rfl
    exact absurd hblank (by decide)
  · rintro rfl
    rw [hfirst] at hblank
    cases hblank
  · rintro rfl
    rw [hsecond] at hblank
    cases hblank

/-- **Balanced lexemes are passed over** on the way to a closing bracket. -/
theorem Balanced.passedOver (h : Balanced kind lexemes) (hkind : kind ∈ brackets)
    (hcs : Spelled [] lexemes cs) : PassedOver kind cs := by
  induction h generalizing cs with
  | nil =>
    cases hcs with
    | nil blank _ =>
      rw [List.append_nil]
      exact passedOver_gap blank hkind
  | @other ℓ lexemes opening closing _ ih =>
    cases hcs with
    | cons blank valid _ hrest =>
      refine (passedOver_gap blank hkind).append (PassedOver.append ?_ (ih hrest))
      by_cases hquoted : ∃ content, ℓ = .quoted content
      · obtain ⟨content, rfl⟩ := hquoted
        exact passedOver_quoted valid
      · exact passedOver_of_ne (valid.ne_of_mem hkind (fun content heq => hquoted ⟨content, heq⟩)
          opening closing)
  | @bracket inside lexemes _ _ ihinside ih =>
    cases hcs with
    | @cons gap cs _ _ blank _ _ hcs =>
      obtain ⟨inner, rest, rfl, hinner, hrest⟩ := hcs.split
      have hwhole := (ihinside hinner).enclosed hkind
      have hsplit : gap ++ ((Lexeme.sign kind.1).chars ++ (inner ++ kind.2 :: rest))
          = gap ++ ((kind.1 :: (inner ++ [kind.2])) ++ rest) := by
        simp [Lexeme.chars]
      rw [hsplit]
      exact (passedOver_gap blank hkind).append (hwhole.append (ih hrest))

/-- **What stands between two brackets is cut out**, whatever else is opened and closed there. -/
theorem Spelled.span_bracket (kind : Char × Char) {inner : List Lexeme}
    (h : Spelled tail (.sign kind.1 :: (inner ++ .sign kind.2 :: lexemes)) cs)
    (hinner : Balanced kind inner) (hkind : kind ∈ brackets) :
    ∃ text body rest, dropBlanks cs = kind.1 :: text ∧
      spanBalanced kind.1 kind.2 0 text = (body, rest) ∧ Spelled [] inner body ∧
      Spelled tail lexemes rest := by
  obtain ⟨text, hnext, -, htext⟩ := h.next_sign
  obtain ⟨body, rest, rfl, hbody, hrest⟩ := htext.split
  have hspan := (hinner.passedOver hkind hbody).span_closed hkind rest
  exact ⟨_, body, rest, hnext, hspan, hbody, hrest⟩

/-! ### Default values -/

theorem balanced_commas (n : Nat) (hkind : kind ∈ brackets) : Balanced kind (plain (commas n)) := by
  have hcomma : ∀ kind ∈ brackets, ',' ≠ kind.1 ∧ ',' ≠ kind.2 := by decide
  have hmem : ∀ ℓ ∈ plain (commas n), ℓ = .sign ',' := by
    intro ℓ hℓ
    obtain ⟨token, htoken, rfl⟩ := List.mem_map.1 hℓ
    rw [List.eq_of_mem_replicate htoken, lexeme_sign]
  exact balanced_of_not_mem
    (fun h => (hcomma kind hkind).1 (Lexeme.sign.inj (hmem _ h)).symm)
    (fun h => (hcomma kind hkind).2 (Lexeme.sign.inj (hmem _ h)).symm)

mutual

/-- Every bracket of a value is closed. -/
theorem Literal.balanced (l : Literal) (hkind : kind ∈ brackets) : Balanced kind l.lexemes := by
  cases l with
  | numeral digits => exact .other nofun nofun .nil
  | name name => exact .other nofun nofun .nil
  | text content => exact .other nofun nofun .nil
  | list items => exact (items.balanced hkind).enclosed hkind (by decide : ('[', ']') ∈ brackets)
  | object members =>
    exact (members.balanced hkind).enclosed hkind (by decide : ('\x7b', '\x7d') ∈ brackets)

theorem Items.balanced (items : Items) (hkind : kind ∈ brackets) :
    Balanced kind items.lexemes := by
  cases items with
  | nil => exact .nil
  | cons item n rest =>
    exact (item.balanced hkind).append ((balanced_commas n hkind).append (rest.balanced hkind))

theorem Members.balanced (members : Members) (hkind : kind ∈ brackets) :
    Balanced kind members.lexemes := by
  have hcolon : ∀ kind ∈ brackets, ':' ≠ kind.1 ∧ ':' ≠ kind.2 := by decide
  obtain ⟨hfirst, hsecond⟩ := hcolon kind hkind
  cases members with
  | nil => exact .nil
  | cons name value n rest =>
    have hrest := (value.balanced hkind).append
      ((balanced_commas n hkind).append (rest.balanced hkind))
    exact .other nofun nofun (.other (fun heq => hfirst (Lexeme.sign.inj heq))
      (fun heq => hsecond (Lexeme.sign.inj heq)) hrest)

end

/-- What may follow a default value: the end, a comma, or the name of the next argument. -/
def FollowsDefault (lexemes : List Lexeme) : Prop :=
  ∀ ℓ ∈ lexemes.head?, ℓ = .sign ',' ∨ ∃ name, ℓ = .word name

/-- A default value without brackets and quotes ends where its lexeme does. -/
theorem Spelled.endsDefault (h : Spelled [] lexemes cs) (hlexemes : FollowsDefault lexemes)
    (hends : ∀ c ∈ cs.head?, isAsciiWord c = false) :
    ∀ c ∈ cs.head?, FieldDecl.endsDefault c = true := by
  have hblank : ∀ {c}, isBlank c = true → FieldDecl.endsDefault c = true := by
    intro c hc
    rw [FieldDecl.endsDefault, hc, Bool.true_or, Bool.true_or]
  intro c hc
  cases h with
  | nil blank _ =>
    rw [List.append_nil] at hc
    exact hblank (blank c (List.mem_of_head? hc))
  | @cons gap cs ℓ lexemes blank valid _ _ =>
    cases gap with
    | cons d gap =>
      cases hc
      exact hblank (blank _ List.mem_cons_self)
    | nil =>
      rcases hlexemes ℓ rfl with rfl | ⟨name, rfl⟩
      · cases hc
        decide
      · -- with no blank between them the two would be one word
        obtain ⟨d, more, hname, hd⟩ := IsWord.exists_cons valid
        rw [List.nil_append, Lexeme.chars, hname] at hends
        rw [hends d rfl] at hd
        cases hd

theorem afterDefaultValue_run {run : List Char} (hrun : run ≠ [])
    (hchars : ∀ c ∈ run, isAsciiWord c = true ∨ isNumeral c = true)
    (hrest : ∀ c ∈ rest.head?, endsDefault c = true) :
    afterDefaultValue (run ++ rest) = rest := by
  have hall : ∀ c ∈ run, endsDefault c = false ∧ c ≠ '"' ∧ c ≠ '[' ∧ c ≠ '\x7b' := by
    intro c hc
    have hblank : isBlank c = false :=
      (hchars c hc).elim isBlank_of_isAsciiWord isBlank_of_isNumeral
    have hne : ∀ d, isAsciiWord d = false → isNumeral d = false → c ≠ d := by
      rintro d hword hnumeral rfl
      rcases hchars c hc with h | h
      · rw [hword] at h
        cases h
      · rw [hnumeral] at h
        cases h
    refine ⟨?_, hne _ (by decide) (by decide), hne _ (by decide) (by decide),
      hne _ (by decide) (by decide)⟩
    rw [endsDefault, hblank, beq_eq_false_iff_ne.2 (hne ',' (by decide) (by decide)),
      beq_eq_false_iff_ne.2 (hne ')' (by decide) (by decide))]
    rfl
  have hdrop := (span_eq (p := fun c => !endsDefault c) (fun c hc => by rw [(hall c hc).1]; rfl)
    fun c hc => by rw [hrest c hc]; rfl).2
  obtain ⟨c, run, rfl⟩ := List.exists_cons_of_ne_nil hrun
  obtain ⟨-, hquote, hbracket, hbrace⟩ := hall c List.mem_cons_self
  rw [List.cons_append] at hdrop ⊢
  rw [afterDefaultValue]
  · exact hdrop
  all_goals
    rintro _ heq
    cases heq
    contradiction

/-- **What follows a default value**, whatever stands in it. -/
theorem Spelled.after_default {l : Literal}
    (h : Spelled [] (.sign '=' :: (l.lexemes ++ lexemes)) cs) (hlexemes : FollowsDefault lexemes) :
    Spelled [] lexemes (afterDefault cs) := by
  obtain ⟨value, hsign, -, hvalue⟩ := h.next_sign
  have hafter : afterDefault cs = afterDefaultValue (dropBlanks value) := by
    rw [afterDefault, hsign]
    rfl
  rw [hafter]
  cases l with
  | numeral digits =>
    obtain ⟨rest, hnext, hvalid, hends, hrest⟩ := hvalue.next
    rw [hnext, Lexeme.chars, afterDefaultValue_run hvalid.1 (fun c hc => .inr (hvalid.2 c hc))
      (hrest.endsDefault hlexemes fun c hc => (hends c hc).1)]
    exact hrest
  | name name =>
    obtain ⟨rest, hnext, hvalid, hends, hrest⟩ := hvalue.next
    rw [hnext, Lexeme.chars, afterDefaultValue_run hvalid.1 (fun c hc => .inl (hvalid.2 c hc))
      (hrest.endsDefault hlexemes hends)]
    exact hrest
  | text content =>
    obtain ⟨rest, hnext, hvalid, -, hrest⟩ := hvalue.next
    rw [hnext, Lexeme.chars_quoted_append, afterDefaultValue, afterQuoted, spanQuoted_eq hvalid]
    exact hrest
  | list items =>
    rw [Literal.lexemes, List.cons_append, List.append_assoc, List.singleton_append] at hvalue
    obtain ⟨text, body, rest, hnext, hspan, -, hrest⟩ :=
      hvalue.span_bracket ('[', ']') (items.balanced (by decide)) (by decide)
    rw [hnext, afterDefaultValue, hspan]
    exact hrest
  | object members =>
    rw [Literal.lexemes, List.cons_append, List.append_assoc, List.singleton_append] at hvalue
    obtain ⟨text, body, rest, hnext, hspan, -, hrest⟩ :=
      hvalue.span_bracket ('\x7b', '\x7d') (members.balanced (by decide)) (by decide)
    rw [hnext, afterDefaultValue, hspan]
    exact hrest

/-- Where no equals sign is next there is no default value. -/
theorem Spelled.no_default (h : Spelled tail lexemes cs)
    (hlexemes : lexemes.head? ≠ some (.sign '=')) : Spelled tail lexemes (afterDefault cs) := by
  have hhead := h.head_ne (by decide) hlexemes
  have hbare : afterDefault cs = dropBlanks cs := by
    rw [afterDefault]
    split
    · next hnext =>
      rw [hnext] at hhead
      exact absurd rfl hhead
    · rfl
  rw [hbare]
  exact h.without_blanks

end SchemaSyntax

end GraphWalk
