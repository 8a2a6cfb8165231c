import GraphWalk.Proofs.Schema.Lexemes
import GraphWalk.Proofs.Schema.Stripping

/-!
# Texts without comments

Comments and descriptions between triple quotes are taken out of a text before anything else
is read.  What is taken out is told by characters alone: a hash begins a comment inside a
quoted text too, and three quotes in a row begin a description wherever they come from.

## Main results

* `strip_eq_self` — without hashes and triple quotes nothing is taken out.
* `Spelled.hash_not_mem` — a hash stands in quoted texts only.
* `Spelled.no_tripleQuote` — **quoted texts make no triple quote.**
-/

namespace GraphWalk

namespace SchemaSyntax

variable {lexemes : List Lexeme} {cs run : List Char}

/-- **Without hashes and triple quotes nothing is taken out.** -/
theorem strip_eq_self (hhash : '#' ∉ cs) (hquotes : ¬ Schema.tripleQuote <:+: cs) :
    Schema.strip cs = cs := by
  apply Schema.strip_eq_self hhash
  intro hdescription
  exact hquotes hdescription.infix

/-- A hash stands in quoted texts only. -/
theorem Spelled.hash_not_mem (h : Spelled [] lexemes cs)
    (hquoted : ∀ content, .quoted content ∈ lexemes → '#' ∉ content) : '#' ∉ cs := by
  intro hmem
  rcases h.cases_mem hmem with hblank | ⟨ℓ, hℓ, hchars⟩
  · exact absurd hblank (by decide)
  · by_cases hplain : ∃ content, ℓ = .quoted content
    · obtain ⟨content, rfl⟩ := hplain
      exact hquoted content hℓ (by simpa [Lexeme.chars] using hchars)
    · exact (h.valid ℓ hℓ).not_mem_of_plain (by decide) (by decide) (by decide)
        (fun content heq => hplain ⟨content, heq⟩) hchars

/-! ### Quotes in a row -/

/-- No triple quote begins in a run without quotes. -/
theorem tripleQuote_infix_append (hrun : '"' ∉ run)
    (h : Schema.tripleQuote <:+: run ++ cs) : Schema.tripleQuote <:+: cs := by
  induction run with
  | nil => exact h
  | cons c run ih =>
    rw [List.mem_cons, not_or] at hrun
    rw [List.cons_append, List.infix_cons_iff] at h
    rcases h with ⟨rest, hrest⟩ | h
    · exact absurd (List.cons.inj hrest).1 hrun.1
    · exact ih hrun.2 h

/-- What is left of a quoted text, and what follows it, do not begin with two quotes. -/
theorem not_two_quotes {content : List Char} (hcontent : isQuotable content = true)
    (hcs : cs.head? ≠ some '"') : ¬ ['"', '"'] <+: content ++ '"' :: cs := by
  intro h
  cases content with
  | nil =>
    obtain ⟨rest, rfl⟩ := (List.cons_prefix_cons.1 h).2
    exact hcs rfl
  | cons c content =>
    obtain ⟨rfl, -⟩ := List.cons_prefix_cons.1 h
    cases hcontent

/-- Behind its opening quote a quoted text makes no triple quote with what follows. -/
theorem tripleQuote_infix_content {content : List Char} (hcontent : isQuotable content = true)
    (hcs : cs.head? ≠ some '"') (h : Schema.tripleQuote <:+: content ++ '"' :: cs) :
    Schema.tripleQuote <:+: cs := by
  fun_induction isQuotable content with
  | case1 =>
    rcases List.infix_cons_iff.1 h with h | h
    · obtain ⟨rest, rfl⟩ := (List.cons_prefix_cons.1 h).2
      exact absurd rfl hcs
    · exact h
  | case2 => cases hcontent
  | case3 c content ih =>
    rcases List.infix_cons_iff.1 h with h | h
    · exact absurd (List.cons_prefix_cons.1 h).1 (by decide)
    · rcases List.infix_cons_iff.1 h with h | h
      · exact absurd (List.cons_prefix_cons.1 h).2 (not_two_quotes hcontent hcs)
      · exact ih hcontent h
  | case4 c content hlone hescape ih =>
    obtain ⟨hc, hcontent⟩ := Bool.and_eq_true_iff.1 hcontent
    rcases List.infix_cons_iff.1 h with h | h
    · exact absurd (List.cons_prefix_cons.1 h).1.symm (bne_iff_ne.1 hc)
    · exact ih hcontent h

/-- **Quoted texts make no triple quote**, since none stands directly before another. -/
theorem Spelled.no_tripleQuote (h : Spelled [] lexemes cs) : ¬ Schema.tripleQuote <:+: cs := by
  have hgap : ∀ {gap : List Char}, IsGap gap → '"' ∉ gap := fun blank hmem =>
    absurd (blank _ hmem) (by decide)
  induction h with
  | nil blank _ =>
    intro h
    exact absurd (tripleQuote_infix_append (hgap blank) h) (by decide)
  | @cons gap cs ℓ lexemes blank valid ends _ ih =>
    intro h
    have hchars := tripleQuote_infix_append (hgap blank) h
    by_cases hplain : ∃ content, ℓ = .quoted content
    · obtain ⟨content, rfl⟩ := hplain
      have hcs : cs.head? ≠ some '"' := fun heq => ends '"' heq rfl
      rw [Lexeme.chars_quoted_append] at hchars
      rcases List.infix_cons_iff.1 hchars with hprefix | hinner
      · exact not_two_quotes valid hcs (List.cons_prefix_cons.1 hprefix).2
      · exact ih (tripleQuote_infix_content valid hcs hinner)
    · have hnone := valid.not_mem_of_plain (c := '"') (by decide) (by decide) (by decide)
        fun content heq => hplain ⟨content, heq⟩
      exact ih (tripleQuote_infix_append hnone hchars)

end SchemaSyntax

end GraphWalk
