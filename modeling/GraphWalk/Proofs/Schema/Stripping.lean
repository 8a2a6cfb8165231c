import Mathlib.Data.List.Infix
import GraphWalk.Proofs.Text.Runs
import GraphWalk.Schema.Comments

/-!
# What is left of a text without its comments

A text is cut into characters that stay, comments and descriptions.  A comment ends where its
line does and a description leaves its newlines, so whatever stays keeps its line.  What stays
is not brought together so that it makes a new comment: a comment is followed by the end of a
line, and a quote directly before a description would have opened a description itself.

## Main definitions

* `Schema.Opens`, `Schema.HasDescription` — a closed description begins a text, or stands in it.
* `Schema.Piece`, `Schema.Cut` — the pieces of a text, and how a text is cut into them.
* `Schema.numbered` — the characters of a text, each with the number of newlines before it.
* `Schema.survivors` — the characters that stay, numbered as they were in the text.

## Main results

* `Schema.exists_cut` — every text is cut, and what is left of its pieces is what is left of it.
* `Schema.Cut.unique` — **there is only one way to cut a text.**
* `Schema.Cut.not_hasDescription` — **what is left joins to no description.**
* `Schema.strip_eq_self` — without hashes and descriptions nothing is taken out.
* `Schema.strip_keeps_lines` — **everything keeps its line, and nothing is left to take out.**
-/

namespace GraphWalk

namespace Schema

variable {cs body rest : List Char} {c : Char}

/-! ### Descriptions -/

/-- The text begins with a description that is closed. -/
def Opens (cs : List Char) : Prop :=
  ∃ body rest, cs = tripleQuote ++ body ++ tripleQuote ++ rest

/-- Somewhere in the text there is a description that is closed. -/
def HasDescription (cs : List Char) : Prop :=
  ∃ rest, rest <:+ cs ∧ Opens rest

/-- A text begins with a closed description if there are three quotes behind its first three. -/
theorem opens_iff : Opens cs ↔ ∃ rest, cs = tripleQuote ++ rest ∧ tripleQuote <:+: rest := by
  constructor
  · rintro ⟨body, rest, rfl⟩
    exact ⟨body ++ tripleQuote ++ rest, by simp, body, rest, rfl⟩
  · rintro ⟨rest, rfl, body, after, rfl⟩
    exact ⟨body, after, by simp⟩

theorem Opens.infix (h : Opens cs) : tripleQuote <:+: cs := by
  obtain ⟨rest, rfl, -⟩ := opens_iff.1 h
  exact ⟨[], rest, rfl⟩

/-- A quote before a description opens one itself, which ends where that did. -/
theorem Opens.cons_quote (h : Opens cs) : Opens ('"' :: cs) := by
  obtain ⟨body, rest, rfl⟩ := h
  exact ⟨'"' :: body, rest, by simp [tripleQuote]⟩

theorem HasDescription.infix (h : HasDescription cs) : tripleQuote <:+: cs := by
  obtain ⟨rest, hsuffix, hopens⟩ := h
  exact hopens.infix.trans hsuffix.isInfix

theorem hasDescription_cons : HasDescription (c :: cs) ↔ Opens (c :: cs) ∨ HasDescription cs := by
  constructor
  · rintro ⟨rest, hsuffix, hopens⟩
    rcases List.suffix_cons_iff.1 hsuffix with rfl | hsuffix
    · exact .inl hopens
    · exact .inr ⟨rest, hsuffix, hopens⟩
  · rintro (hopens | ⟨rest, hsuffix, hopens⟩)
    · exact ⟨c :: cs, List.suffix_refl _, hopens⟩
    · exact ⟨rest, hsuffix.trans (List.suffix_cons c cs), hopens⟩

/-- Without a quote at its front a text opens no description. -/
theorem Opens.head (h : Opens (c :: cs)) : c = '"' := by
  obtain ⟨body, rest, heq⟩ := h
  exact (List.cons.inj heq).1

/-- No description begins in a run without quotes. -/
theorem HasDescription.of_append {run : List Char} (hrun : '"' ∉ run)
    (h : HasDescription (run ++ cs)) : HasDescription cs := by
  induction run with
  | nil => exact h
  | cons c run ih =>
    rw [List.mem_cons, not_or] at hrun
    rcases hasDescription_cons.1 h with hopens | h
    · exact absurd hopens.head.symm hrun.1
    · exact ih hrun.2 h

/-! ### Reading a description -/

theorem after?_eq_none_iff {word : List Char} : Text.after? word cs = none ↔ ¬ word <+: cs := by
  constructor
  · rintro hnone ⟨rest, heq⟩
    rw [Text.after?_eq_some_iff.2 heq.symm] at hnone
    cases hnone
  · intro hbegins
    cases hafter : Text.after? word cs with
    | none => rfl
    | some rest => exact absurd ⟨rest, (Text.after?_eq_some_iff.1 hafter).symm⟩ hbegins

theorem closing?_eq_none_iff : closing? cs = none ↔ ¬ tripleQuote <:+: cs := by
  induction cs with
  | nil => simp [closing?, tripleQuote]
  | cons c cs ih =>
    rw [closing?, List.infix_cons_iff, not_or]
    cases hafter : Text.after? tripleQuote (c :: cs) with
    | some rest =>
      have hbegins : tripleQuote <+: c :: cs := ⟨rest, (Text.after?_eq_some_iff.1 hafter).symm⟩
      simp [hbegins]
    | none =>
      have hbegins := after?_eq_none_iff.1 hafter
      simp [hbegins, ih]

/-- Whether three quotes in a row begin before the last three is told with two of these. -/
theorem begins_iff : tripleQuote <+: c :: (body ++ tripleQuote ++ rest) ↔
    tripleQuote <+: c :: (body ++ ['"', '"']) := by
  have hwhole : c :: (body ++ ['"', '"']) <+: c :: (body ++ tripleQuote ++ rest) :=
    ⟨'"' :: rest, by simp [tripleQuote]⟩
  constructor
  · intro h
    apply List.prefix_of_prefix_length_le h hwhole
    simp [tripleQuote]
  · intro h
    exact h.trans hwhole

/-- A description ends at the first three quotes in a row. -/
theorem closing?_eq_some_iff : closing? cs = some (body, rest) ↔
    cs = body ++ tripleQuote ++ rest ∧ ¬ tripleQuote <:+: body ++ ['"', '"'] := by
  constructor
  · intro h
    induction cs generalizing body with
    | nil => cases h
    | cons c cs ih =>
      rw [closing?] at h
      split at h
      · next hafter =>
        cases h
        exact ⟨Text.after?_eq_some_iff.1 hafter, by decide⟩
      · next hafter =>
        obtain ⟨⟨found, after⟩, hfound, hpair⟩ := Option.map_eq_some_iff.1 h
        obtain ⟨rfl, rfl⟩ := Prod.mk.inj hpair
        obtain ⟨rfl, hfirst⟩ := ih hfound
        rw [after?_eq_none_iff, begins_iff] at hafter
        refine ⟨rfl, ?_⟩
        rw [List.cons_append, List.infix_cons_iff, not_or]
        exact ⟨hafter, hfirst⟩
  · rintro ⟨rfl, hfirst⟩
    induction body with
    | nil => rfl
    | cons c body ih =>
      rw [List.cons_append, List.infix_cons_iff, not_or, ← begins_iff] at hfirst
      rw [List.cons_append, List.cons_append, closing?, after?_eq_none_iff.2 hfirst.1, ih hfirst.2]
      rfl

theorem description?_eq_some_iff : description? cs = some (body, rest) ↔
    cs = tripleQuote ++ body ++ tripleQuote ++ rest ∧ ¬ tripleQuote <:+: body ++ ['"', '"'] := by
  rw [description?, Option.bind_eq_some_iff]
  constructor
  · rintro ⟨after, hafter, hclosing⟩
    obtain ⟨rfl, hfirst⟩ := closing?_eq_some_iff.1 hclosing
    refine ⟨?_, hfirst⟩
    rw [Text.after?_eq_some_iff.1 hafter]
    simp
  · rintro ⟨rfl, hfirst⟩
    refine ⟨body ++ tripleQuote ++ rest, ?_, closing?_eq_some_iff.2 ⟨rfl, hfirst⟩⟩
    rw [Text.after?_eq_some_iff]
    simp

theorem description?_eq_none_iff : description? cs = none ↔ ¬ Opens cs := by
  rw [description?, opens_iff]
  cases hafter : Text.after? tripleQuote cs with
  | none =>
    simp only [Option.bind_none, true_iff]
    rintro ⟨rest, heq, -⟩
    rw [Text.after?_eq_some_iff.2 heq] at hafter
    cases hafter
  | some after =>
    rw [Text.after?_eq_some_iff.1 hafter, Option.bind_some, closing?_eq_none_iff]
    constructor
    · rintro hnone ⟨rest, heq, hclosed⟩
      rw [← List.append_cancel_left heq] at hclosed
      exact hnone hclosed
    · intro hopens hclosed
      exact hopens ⟨after, rfl, hclosed⟩

/-! ### Pieces -/

/-- A piece of a text. -/
inductive Piece
  /-- A character that stays. -/
  | char (c : Char)
  /-- A comment: what stands behind its hash. -/
  | comment (body : List Char)
  /-- A description: what stands between its quotes. -/
  | description (body : List Char)
  deriving DecidableEq, Repr

namespace Piece

/-- The piece as it stands in the text. -/
def written : Piece → List Char
  | .char c => [c]
  | .comment body => '#' :: body
  | .description body => tripleQuote ++ body ++ tripleQuote

/-- The character stays when it stands in the piece. -/
def stays : Piece → Char → Bool
  | .char _, _ => true
  | .comment _, _ => false
  | .description _, c => c == '\n'

/-- What is left of the piece. -/
def left (p : Piece) : List Char := p.written.filter p.stays

@[simp] theorem left_char (c : Char) : (char c).left = [c] := rfl

@[simp] theorem left_comment (body : List Char) : (comment body).left = [] := by
  simp [left, stays]

@[simp] theorem left_description (body : List Char) :
    (description body).left = body.filter (· == '\n') := by
  have hquotes : tripleQuote.filter (· == '\n') = [] := rfl
  show (tripleQuote ++ body ++ tripleQuote).filter (· == '\n') = _
  rw [List.filter_append, List.filter_append, hquotes, List.nil_append, List.append_nil]

end Piece

/-- How a text is cut into pieces. -/
inductive Cut : List Char → List Piece → Prop
  /-- Nothing is left to be cut. -/
  | nil : Cut [] []
  /-- A comment goes on to the end of its line. -/
  | comment {body rest : List Char} {pieces : List Piece}
      (hbody : ∀ c ∈ body, isLineEnd c = false) (hrest : ∀ c ∈ rest.head?, isLineEnd c = true)
      (h : Cut rest pieces) : Cut ('#' :: (body ++ rest)) (.comment body :: pieces)
  /-- A description ends at the first three quotes in a row. -/
  | description {body rest : List Char} {pieces : List Piece}
      (hfirst : ¬ tripleQuote <:+: body ++ ['"', '"']) (h : Cut rest pieces) :
      Cut (tripleQuote ++ body ++ tripleQuote ++ rest) (.description body :: pieces)
  /-- Where neither of them begins a character stays. -/
  | char {c : Char} {cs : List Char} {pieces : List Piece} (hhash : c ≠ '#')
      (hopens : ¬ Opens (c :: cs)) (h : Cut cs pieces) : Cut (c :: cs) (.char c :: pieces)

/-- Every text is cut, and what is left of its pieces is what is left of it. -/
theorem exists_cut (cs : List Char) :
    ∃ pieces, Cut cs pieces ∧ strip cs = pieces.flatMap Piece.left := by
  induction cs using strip.induct with
  | case1 => exact ⟨[], .nil, strip_nil⟩
  | case2 cs _ ih =>
    obtain ⟨pieces, hcut, hleft⟩ := ih
    have hcomment : Cut ('#' :: (cs.takeWhile (fun c => !isLineEnd c)
        ++ cs.dropWhile fun c => !isLineEnd c))
        (.comment (cs.takeWhile fun c => !isLineEnd c) :: pieces) := by
      refine .comment ?_ ?_ hcut
      · intro c hc
        simpa using List.mem_takeWhile_imp hc
      · intro c hc
        have hstop := List.head?_dropWhile_not (fun c => !isLineEnd c) cs
        rw [Option.mem_def.1 hc] at hstop
        simpa using hstop
    rw [List.takeWhile_append_dropWhile] at hcomment
    exact ⟨_, hcomment, by rw [strip_hash, hleft]; simp⟩
  | case3 c cs hhash body rest hdescription _ ih =>
    obtain ⟨pieces, hcut, hleft⟩ := ih
    obtain ⟨heq, hfirst⟩ := description?_eq_some_iff.1 hdescription
    have hpieces := Cut.description hfirst hcut
    rw [← heq] at hpieces
    exact ⟨_, hpieces, by rw [strip_description hhash hdescription, hleft]; simp⟩
  | case4 c cs hhash hdescription ih =>
    obtain ⟨pieces, hcut, hleft⟩ := ih
    refine ⟨_, .char hhash (description?_eq_none_iff.1 hdescription) hcut, ?_⟩
    rw [strip_cons hhash hdescription, hleft]
    rfl

variable {pieces others : List Piece} {piece : Piece} {line : Nat}

namespace Cut

/-! ### The only way to cut a text -/

/-- How a text is cut that begins with a character. -/
theorem cons_cases (h : Cut (c :: cs) pieces) :
    (∃ body rest more, c = '#' ∧ cs = body ++ rest ∧ (∀ c ∈ body, isLineEnd c = false) ∧
      (∀ c ∈ rest.head?, isLineEnd c = true) ∧ pieces = .comment body :: more ∧ Cut rest more) ∨
    (∃ body rest more, description? (c :: cs) = some (body, rest) ∧
      pieces = .description body :: more ∧ Cut rest more) ∨
    (∃ more, c ≠ '#' ∧ description? (c :: cs) = none ∧ pieces = .char c :: more ∧ Cut cs more) := by
  generalize htext : c :: cs = text at h
  cases h with
  | nil => cases htext
  | @comment body rest more hbody hrest h =>
    obtain ⟨rfl, rfl⟩ := List.cons.inj htext
    exact .inl ⟨body, rest, more, rfl, rfl, hbody, hrest, rfl, h⟩
  | @description body rest more hfirst h =>
    exact .inr (.inl ⟨body, rest, more, description?_eq_some_iff.2 ⟨rfl, hfirst⟩, rfl, h⟩)
  | @char c cs more hhash hopens h =>
    obtain ⟨rfl, rfl⟩ := List.cons.inj htext
    exact .inr (.inr ⟨more, hhash, description?_eq_none_iff.2 hopens, rfl, h⟩)

/-- **There is only one way to cut a text.** -/
theorem unique (h : Cut cs pieces) (h' : Cut cs others) : others = pieces := by
  induction h generalizing others with
  | nil =>
    generalize htext : [] = text at h'
    cases h' with
    | nil => rfl
    | comment => cases htext
    | description => cases htext
    | char => cases htext
  | comment hbody hrest _ ih =>
    rcases h'.cons_cases with ⟨found, after, more, -, hsplit, hfound, hafter, rfl, hmore⟩ |
      ⟨found, after, more, hdescription, -⟩ | ⟨more, hhash, -⟩
    · obtain ⟨rfl, rfl⟩ := Text.run_append_inj (p := fun c => !isLineEnd c) (by simpa using hbody)
        (by simpa using hrest) (by simpa using hfound) (by simpa using hafter) hsplit
      rw [ih hmore]
    · cases (description?_eq_some_iff.1 hdescription).1
    · exact absurd rfl hhash
  | @description body rest pieces hfirst _ ih =>
    have hread : description? (tripleQuote ++ body ++ tripleQuote ++ rest) = some (body, rest) :=
      description?_eq_some_iff.2 ⟨rfl, hfirst⟩
    rcases h'.cons_cases with ⟨found, after, more, heq, -⟩ |
      ⟨found, after, more, hdescription, rfl, hmore⟩ | ⟨more, -, hdescription, -⟩
    · cases heq
    · obtain ⟨rfl, rfl⟩ := Prod.mk.inj (Option.some.inj (hread.symm.trans hdescription))
      rw [ih hmore]
    · cases hread.symm.trans hdescription
  | char hhash hopens _ ih =>
    rcases h'.cons_cases with ⟨found, after, more, heq, -⟩ |
      ⟨found, after, more, hdescription, -⟩ | ⟨more, -, -, rfl, hmore⟩
    · exact absurd heq hhash
    · rw [description?_eq_none_iff.2 hopens] at hdescription
      cases hdescription
    · rw [ih hmore]

/-! ### What the pieces hold -/

/-- The pieces make up the text. -/
theorem written (h : Cut cs pieces) : pieces.flatMap Piece.written = cs := by
  induction h with
  | nil => rfl
  | comment _ _ _ ih => simp [Piece.written, ih]
  | description _ _ ih => simp [Piece.written, ih]
  | char _ _ _ ih => simp [Piece.written, ih]

/-- Newlines stay, in whatever piece they stand. -/
theorem newline_stays (h : Cut cs pieces) :
    ∀ piece ∈ pieces, '\n' ∈ piece.written → piece.stays '\n' = true := by
  induction h with
  | nil => exact nofun
  | comment hbody _ _ ih =>
    rw [List.forall_mem_cons]
    refine ⟨?_, ih⟩
    intro hmem
    rcases List.mem_cons.1 hmem with heq | hmem
    · cases heq
    · exact absurd (hbody _ hmem) (by decide)
  | description _ _ ih => exact List.forall_mem_cons.2 ⟨fun _ => rfl, ih⟩
  | char _ _ _ ih => exact List.forall_mem_cons.2 ⟨fun _ => rfl, ih⟩

/-- No hash stays. -/
theorem hash_not_mem (h : Cut cs pieces) : '#' ∉ pieces.flatMap Piece.left := by
  induction h with
  | nil => exact List.not_mem_nil
  | comment _ _ _ ih => simpa using ih
  | description _ _ ih => simpa using ih
  | char hhash _ _ ih => simpa [Ne.symm hhash] using ih

/-! ### What is left side by side -/

/-- At the end of a line nothing is cut off. -/
theorem head?_of_isLineEnd (h : Cut cs pieces) (hcs : ∀ c ∈ cs.head?, isLineEnd c = true) :
    ∀ c ∈ (pieces.flatMap Piece.left).head?, isLineEnd c = true := by
  cases h with
  | nil => exact nofun
  | comment => exact absurd (hcs '#' rfl) (by decide)
  | description => exact absurd (hcs '"' rfl) (by decide)
  | char => exact hcs

/-- What is left begins with a quote only if the text begins with this quote, or with a
description. -/
theorem of_left_eq_quote (h : Cut cs pieces) (hleft : pieces.flatMap Piece.left = '"' :: rest) :
    Opens cs ∨ ∃ after pieces, cs = '"' :: after ∧ Cut after pieces ∧
      pieces.flatMap Piece.left = rest := by
  cases h with
  | nil => cases hleft
  | comment hbody hrest h =>
    have hhead := h.head?_of_isLineEnd hrest '"'
    rw [List.flatMap_cons, Piece.left_comment, List.nil_append] at hleft
    rw [hleft] at hhead
    exact absurd (hhead rfl) (by decide)
  | @description body after _ _ _ => exact .inl ⟨body, after, rfl⟩
  | char _ _ h =>
    obtain ⟨rfl, hrest⟩ := List.cons.inj hleft
    exact .inr ⟨_, _, rfl, h, hrest⟩

/-- Behind a quote, two more are left only if they follow in the text, or a description does. -/
theorem of_left_eq_quotes (h : Cut cs pieces)
    (hleft : pieces.flatMap Piece.left = '"' :: '"' :: rest) :
    Opens cs ∨ ∃ after pieces, cs = '"' :: '"' :: after ∧ Cut after pieces ∧
      pieces.flatMap Piece.left = rest := by
  rcases h.of_left_eq_quote hleft with hopens | ⟨cs, pieces, rfl, h, hleft⟩
  · exact .inl hopens
  · rcases h.of_left_eq_quote hleft with hopens | ⟨after, pieces, rfl, h, hleft⟩
    · exact .inl hopens.cons_quote
    · exact .inr ⟨after, pieces, rfl, h, hleft⟩

/-- Three quotes are left in a row only if there are three in the text. -/
theorem infix_of_left (h : Cut cs pieces) (hleft : tripleQuote <:+: pieces.flatMap Piece.left) :
    tripleQuote <:+: cs := by
  induction h with
  | nil => exact hleft
  | @comment body rest pieces _ _ _ ih =>
    have hrest : rest <:+: '#' :: (body ++ rest) := ⟨'#' :: body, [], by simp⟩
    exact (ih (by simpa using hleft)).trans hrest
  | @description body rest _ _ _ _ => exact Opens.infix ⟨body, rest, rfl⟩
  | @char c cs pieces _ _ h ih =>
    rcases List.infix_cons_iff.1 hleft with ⟨rest, heq⟩ | hinner
    · obtain ⟨rfl, hquotes⟩ := List.cons.inj heq
      rcases h.of_left_eq_quotes hquotes.symm with hopens | ⟨after, _, rfl, -, -⟩
      · exact hopens.cons_quote.infix
      · exact ⟨[], after, rfl⟩
    · exact (ih hinner).trans (List.suffix_cons c cs).isInfix

/-- **What is left joins to no description.** -/
theorem not_hasDescription (h : Cut cs pieces) :
    ¬ HasDescription (pieces.flatMap Piece.left) := by
  induction h with
  | nil =>
    intro hleft
    exact absurd hleft.infix (by decide)
  | comment _ _ _ ih => simpa using ih
  | @description body rest pieces _ _ ih =>
    intro hleft
    rw [List.flatMap_cons, Piece.left_description] at hleft
    exact ih (hleft.of_append (by simp))
  | @char c cs pieces _ hopens h ih =>
    intro hleft
    rw [List.flatMap_cons, Piece.left_char, List.singleton_append] at hleft
    rcases hasDescription_cons.1 hleft with hleft | hleft
    · -- the quotes that open it stood in a row, and those that close it behind them
      obtain ⟨rest, heq, hclosed⟩ := opens_iff.1 hleft
      obtain ⟨rfl, hquotes : _ = '"' :: '"' :: rest⟩ := List.cons.inj heq
      rcases h.of_left_eq_quotes hquotes with hdescribed | ⟨after, pieces, rfl, hcut, hrest⟩
      · exact hopens hdescribed.cons_quote
      · rw [← hrest] at hclosed
        exact hopens (opens_iff.2 ⟨after, rfl, hcut.infix_of_left hclosed⟩)
    · exact ih hleft

end Cut

/-! ### Lines -/

/-- The characters of a text, each with the number of newlines before it. -/
def numbered (line : Nat) : List Char → List (Nat × Char)
  | [] => []
  | c :: cs => (line, c) :: numbered (if c = '\n' then line + 1 else line) cs

/-- The characters that stay, each with the number of newlines before it in the text. -/
def survivors (line : Nat) : List Piece → List (Nat × Char)
  | [] => []
  | piece :: pieces =>
    (numbered line piece.written).filter (fun entry => piece.stays entry.2)
      ++ survivors (line + piece.written.count '\n') pieces

theorem numbered_append (line : Nat) (cs ds : List Char) :
    numbered line (cs ++ ds) = numbered line cs ++ numbered (line + cs.count '\n') ds := by
  induction cs generalizing line with
  | nil => simp [numbered]
  | cons c cs ih =>
    rw [List.cons_append, numbered, numbered, ih, List.cons_append, List.count_cons]
    by_cases hc : c = '\n'
    · simp only [hc, if_true, beq_self_eq_true, Nat.add_assoc, Nat.add_comm 1]
    · simp only [hc, if_false, beq_iff_eq, Nat.add_zero]

/-- Taking out characters other than newlines changes no number. -/
theorem numbered_filter {stays : Char → Bool} (h : '\n' ∈ cs → stays '\n' = true) (line : Nat) :
    numbered line (cs.filter stays) = (numbered line cs).filter fun entry => stays entry.2 := by
  induction cs generalizing line with
  | nil => rfl
  | cons c cs ih =>
    have hrest := ih fun hmem => h (List.mem_cons_of_mem _ hmem)
    by_cases hstays : stays c = true
    · simp only [List.filter_cons, numbered, hstays, if_true, hrest]
    · have hc : c ≠ '\n' := by
        rintro rfl
        exact hstays (h List.mem_cons_self)
      simp only [List.filter_cons, numbered, hstays, hc, if_false, hrest, Bool.false_eq_true]

/-- What is left of a piece has all of its newlines. -/
theorem Piece.count_left (h : '\n' ∈ piece.written → piece.stays '\n' = true) :
    piece.left.count '\n' = piece.written.count '\n' := by
  by_cases hmem : '\n' ∈ piece.written
  · rw [left, List.count_filter (h hmem)]
  · have hleft : '\n' ∉ piece.left := fun hleft => hmem (List.mem_of_mem_filter hleft)
    rw [List.count_eq_zero_of_not_mem hmem, List.count_eq_zero_of_not_mem hleft]

/-- **What stays keeps its line.** -/
theorem numbered_left
    (h : ∀ piece ∈ pieces, '\n' ∈ piece.written → piece.stays '\n' = true) (line : Nat) :
    numbered line (pieces.flatMap Piece.left) = survivors line pieces := by
  induction pieces generalizing line with
  | nil => rfl
  | cons piece pieces ih =>
    obtain ⟨hpiece, hpieces⟩ := List.forall_mem_cons.1 h
    rw [List.flatMap_cons, numbered_append, survivors, Piece.count_left hpiece, ih hpieces,
      Piece.left, numbered_filter hpiece]

/-- What stays keeps its order. -/
theorem survivors_sublist (line : Nat) (pieces : List Piece) :
    (survivors line pieces).Sublist (numbered line (pieces.flatMap Piece.written)) := by
  induction pieces generalizing line with
  | nil => exact List.nil_sublist _
  | cons piece pieces ih =>
    rw [survivors, List.flatMap_cons, numbered_append]
    exact List.filter_sublist.append (ih _)

theorem count_left (h : ∀ piece ∈ pieces, '\n' ∈ piece.written → piece.stays '\n' = true) :
    (pieces.flatMap Piece.left).count '\n' = (pieces.flatMap Piece.written).count '\n' := by
  induction pieces with
  | nil => rfl
  | cons piece pieces ih =>
    obtain ⟨hpiece, hpieces⟩ := List.forall_mem_cons.1 h
    simp only [List.flatMap_cons, List.count_append, Piece.count_left hpiece, ih hpieces]

/-! ### The whole text -/

/-- **Without hashes and descriptions nothing is taken out.** -/
theorem strip_eq_self (hhash : '#' ∉ cs) (hdescription : ¬ HasDescription cs) :
    strip cs = cs := by
  induction cs with
  | nil => exact strip_nil
  | cons c cs ih =>
    rw [List.mem_cons, not_or] at hhash
    rw [hasDescription_cons, not_or] at hdescription
    rw [strip_cons (Ne.symm hhash.1) (description?_eq_none_iff.2 hdescription.1),
      ih hhash.2 hdescription.2]

/-- **Everything keeps its line, and nothing is left to take out.**

There is one way to cut a text into characters that stay, comments and closed descriptions, and of
the last two only the newlines of descriptions are left.  There are as many newlines as before.  The
characters that stay stand in the order they had in the text, each behind as many newlines.  There
is no hash left and no closed description, so nothing more would be taken out. -/
theorem strip_keeps_lines (cs : List Char) :
    (∃ pieces, (∀ others, Cut cs others ↔ others = pieces) ∧
      strip cs = pieces.flatMap Piece.left ∧
      numbered 0 (strip cs) = survivors 0 pieces ∧
      (survivors 0 pieces).Sublist (numbered 0 cs)) ∧
    (strip cs).count '\n' = cs.count '\n' ∧
    '#' ∉ strip cs ∧
    (∀ before body behind, strip cs ≠ before ++ (tripleQuote ++ body ++ tripleQuote) ++ behind) ∧
    strip (strip cs) = strip cs := by
  obtain ⟨pieces, hcut, hleft⟩ := exists_cut cs
  have hhash : '#' ∉ strip cs := hleft ▸ hcut.hash_not_mem
  have hdescription : ¬ HasDescription (strip cs) := hleft ▸ hcut.not_hasDescription
  have hsublist := survivors_sublist 0 pieces
  rw [hcut.written] at hsublist
  refine ⟨⟨pieces, ?_, hleft, ?_, hsublist⟩, ?_, hhash, ?_, strip_eq_self hhash hdescription⟩
  · intro others
    constructor
    · exact hcut.unique
    · rintro rfl
      exact hcut
  · rw [hleft, numbered_left hcut.newline_stays]
  · rw [hleft, count_left hcut.newline_stays, hcut.written]
  · intro before body behind heq
    exact hdescription ⟨tripleQuote ++ body ++ tripleQuote ++ behind,
      ⟨before, by simp [heq]⟩, body, behind, rfl⟩

end Schema

end GraphWalk
