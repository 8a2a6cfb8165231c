import Mathlib.Data.List.Chain
import GraphWalk.Proofs.Schema.FieldSteps

/-!
# How the scanner of fields gets on

A place of the scanner is told by the text that is left from there on.  Whatever the scanner takes
next, be it blanks, a name, a quoted text, a default value or what stands between brackets, it
goes forwards, and it never stops in the middle of a name: so a name that it takes begins where the
text begins it.

## Main definitions

* `Reaches` — how the scanner gets on: forwards, and never into the middle of a name.
* `Trail` — several such moves, and the places between them.

## Main results

* `reaches_dropTrivia`, `reaches_spanBalanced`, `reaches_afterDefault` — the moves of the scanner.
* `Trail.isChain` — what is left at a place is the end of what was left before.
-/

namespace GraphWalk

namespace FieldDecl

open Text

/-! ### Moves -/

/-- How the scanner gets on: what is passed stands in front of what is left, and no name goes on
from one to the other. -/
def Reaches (cs rest : List Char) : Prop :=
  ∃ passed, cs = passed ++ rest ∧
    ∀ c ∈ passed.getLast?, ∀ d ∈ rest.head?, isName c = false ∨ isName d = false

section Moves

variable {cs mid rest inner passed : List Char} {c token : Char} {p : Char → Bool}

theorem Reaches.refl (cs : List Char) : Reaches cs cs := ⟨[], rfl, nofun⟩

theorem Reaches.trans (h : Reaches cs mid) (hmid : Reaches mid rest) : Reaches cs rest := by
  obtain ⟨before, rfl, hbefore⟩ := h
  obtain ⟨between, rfl, hbetween⟩ := hmid
  refine ⟨before ++ between, (List.append_assoc ..).symm, fun c hc d hd => ?_⟩
  rw [List.getLast?_append] at hc
  cases hlast : between.getLast? with
  | none =>
    rw [hlast, Option.none_or] at hc
    rw [List.getLast?_eq_none_iff.1 hlast] at hbefore
    exact hbefore c hc d hd
  | some last =>
    rw [hlast, Option.some_or] at hc
    cases hc
    exact hbetween c hlast d hd

theorem Reaches.suffix (h : Reaches cs rest) : rest <:+ cs := by
  obtain ⟨passed, rfl, -⟩ := h
  exact List.suffix_append passed rest

theorem Reaches.length_le (h : Reaches cs rest) : rest.length ≤ cs.length := h.suffix.length_le

/-- No name goes on where no character of a name is left. -/
theorem reaches_of_head? (h : cs = passed ++ rest) (hrest : ∀ d ∈ rest.head?, isName d = false) :
    Reaches cs rest :=
  ⟨passed, h, fun _ _ d hd => .inr (hrest d hd)⟩

/-- No name goes on behind a character that belongs to no name. -/
theorem reaches_of_last (h : cs = passed ++ c :: rest) (hc : isName c = false) :
    Reaches cs rest := by
  refine ⟨passed ++ [c], by rw [h, List.append_assoc, List.singleton_append], fun d hd _ _ => ?_⟩
  rw [List.getLast?_concat, Option.mem_some_iff] at hd
  exact .inl (hd ▸ hc)

theorem reaches_tail (hc : isName c = false) (cs : List Char) : Reaches (c :: cs) cs :=
  reaches_of_last (List.nil_append (c :: cs)).symm hc

theorem reaches_nil (cs : List Char) : Reaches cs [] :=
  reaches_of_head? (List.append_nil cs).symm nofun

theorem reaches_dropBlanks (cs : List Char) : Reaches cs (dropBlanks cs) := by
  refine ⟨cs.takeWhile isBlank, List.takeWhile_append_dropWhile.symm, fun c hc _ _ => .inl ?_⟩
  exact (not_isWord_of_isBlank (List.mem_takeWhile_imp (List.mem_of_getLast? hc))).2

theorem head?_dropWhile (p : Char → Bool) (cs : List Char) :
    ∀ c ∈ (cs.dropWhile p).head?, p c = false := by
  intro c hc
  have hhead := List.head?_dropWhile_not p cs
  rw [Option.mem_def.1 hc] at hhead
  exact hhead

theorem dropBlanks_dropBlanks (cs : List Char) : dropBlanks (dropBlanks cs) = dropBlanks cs :=
  (span_of_head? (head?_dropWhile isBlank cs)).2

theorem reaches_spanName (cs : List Char) : Reaches cs (spanName cs).2 :=
  reaches_of_head? List.takeWhile_append_dropWhile.symm (head?_dropWhile isName cs)

theorem reaches_dropChar (htoken : isName token = false) (cs : List Char) :
    Reaches cs (dropChar token cs) := by
  cases cs with
  | nil => exact .refl []
  | cons c cs =>
    rw [dropChar]
    split
    · next heq =>
      cases heq
      exact reaches_tail htoken cs
    · exact .refl _

/-- A quoted text ends behind its closing quote, or it goes on up to the end. -/
theorem spanQuoted_cases (cs : List Char) :
    (∃ content, cs = content ++ '"' :: (spanQuoted cs).2) ∨ (spanQuoted cs).2 = [] := by
  fun_induction spanQuoted cs with
  | case1 => exact .inr rfl
  | case2 => exact .inr rfl
  | case3 c cs ih =>
    refine ih.imp_left ?_
    rintro ⟨content, hcs⟩
    exact ⟨'\\' :: c :: content, congrArg (fun more => '\\' :: c :: more) hcs⟩
  | case4 cs => exact .inl ⟨[], rfl⟩
  | case5 c cs _ _ _ ih =>
    refine ih.imp_left ?_
    rintro ⟨content, hcs⟩
    exact ⟨c :: content, congrArg (c :: ·) hcs⟩

theorem reaches_afterQuoted (cs : List Char) : Reaches cs (afterQuoted cs) := by
  rw [afterQuoted]
  rcases spanQuoted_cases cs with ⟨content, hcs⟩ | hend
  · exact reaches_of_last hcs (by decide)
  · rw [hend]
    exact reaches_nil cs

theorem reaches_dropTrivia (cs : List Char) : Reaches cs (dropTrivia cs) := by
  fun_induction dropTrivia cs with
  | case1 => exact .refl []
  | case2 c cs hc ih =>
    refine (reaches_tail ?_ cs).trans ih
    simp only [Bool.or_eq_true, beq_iff_eq] at hc
    rcases hc with (hblank | rfl) | rfl
    · exact (not_isWord_of_isBlank hblank).2
    · decide
    · decide
  | case3 cs _ ih => exact (reaches_tail (by decide) cs).trans ((reaches_afterQuoted cs).trans ih)
  | case4 c cs => exact .refl _

theorem spanQuoted_append (cs : List Char) : (spanQuoted cs).1 ++ (spanQuoted cs).2 = cs := by
  fun_induction spanQuoted cs with
  | case1 => rfl
  | case2 => rfl
  | case3 c cs ih => exact congrArg (fun more => '\\' :: c :: more) ih
  | case4 cs => rfl
  | case5 c cs _ _ _ ih => exact congrArg (c :: ·) ih

/-- What stands up to a closing bracket ends there, or it goes on up to the end. -/
theorem spanBalanced_cases (opening closing : Char) (depth : Nat) (cs : List Char) :
    cs = (spanBalanced opening closing depth cs).1 ++
        closing :: (spanBalanced opening closing depth cs).2 ∨
      (spanBalanced opening closing depth cs).1 = cs ∧
        (spanBalanced opening closing depth cs).2 = [] := by
  fun_induction spanBalanced opening closing depth cs with
  | case1 => exact .inr ⟨rfl, rfl⟩
  | case2 depth cs quoted found ih =>
    have hquoted : quoted.1 ++ quoted.2 = cs := spanQuoted_append cs
    rcases ih with hclosed | ⟨hinner, hend⟩
    · refine .inl ?_
      rw [List.cons_append, List.append_assoc, ← hclosed, hquoted]
    · refine .inr ⟨?_, hend⟩
      rw [show found.1 = quoted.2 from hinner, hquoted]
  | case4 => exact .inl rfl
  | _ =>
    rename_i ih
    rcases ih with hclosed | ⟨hinner, hend⟩
    · exact .inl (congrArg (_ :: ·) hclosed)
    · exact .inr ⟨congrArg (_ :: ·) hinner, hend⟩

theorem reaches_spanBalanced {opening closing : Char} (hclosing : isName closing = false)
    (cs : List Char) : Reaches cs (spanBalanced opening closing 0 cs).2 := by
  rcases spanBalanced_cases opening closing 0 cs with hclosed | ⟨-, hend⟩
  · exact reaches_of_last hclosed hclosing
  · rw [hend]
    exact reaches_nil cs

theorem reaches_afterDefaultValue (cs : List Char) : Reaches cs (afterDefaultValue cs) := by
  unfold afterDefaultValue
  split
  · next cs => exact (reaches_tail (by decide) cs).trans (reaches_afterQuoted cs)
  · next cs => exact (reaches_tail (by decide) cs).trans (reaches_spanBalanced (by decide) cs)
  · next cs => exact (reaches_tail (by decide) cs).trans (reaches_spanBalanced (by decide) cs)
  · refine reaches_of_head? List.takeWhile_append_dropWhile.symm fun c hc => ?_
    -- a default value without brackets ends at a blank, a comma or a parenthesis
    have hends := head?_dropWhile (fun c => !endsDefault c) cs c hc
    simp only [endsDefault, Bool.not_eq_eq_eq_not, Bool.not_false, Bool.or_eq_true,
      beq_iff_eq] at hends
    rcases hends with (hblank | rfl) | rfl
    · exact (not_isWord_of_isBlank hblank).2
    · decide
    · decide

theorem reaches_afterDefault (cs : List Char) : Reaches cs (afterDefault cs) := by
  have hblanks := reaches_dropBlanks cs
  unfold afterDefault
  split
  · next rest hrest =>
    rw [hrest] at hblanks
    exact hblanks.trans ((reaches_tail (by decide) rest).trans
      ((reaches_dropBlanks rest).trans (reaches_afterDefaultValue _)))
  · exact hblanks

end Moves

/-! ### Trails -/

/-- A way of the scanner: the places to which it comes one after the other, up to the last. -/
inductive Trail : List Char → List (List Char) → List Char → Prop
  /-- The scanner stays where it is. -/
  | stay {cs : List Char} : Trail cs [] cs
  /-- The scanner gets on, and then goes its way from there. -/
  | move {cs next rest : List Char} {places : List (List Char)} (h : Reaches cs next)
      (more : Trail next places rest) : Trail cs (next :: places) rest

section Trails

variable {cs mid rest next : List Char} {places others : List (List Char)}

theorem Reaches.trail (h : Reaches cs rest) : Trail cs [rest] rest := .move h .stay

theorem Trail.append (h : Trail cs places mid) (more : Trail mid others rest) :
    Trail cs (places ++ others) rest := by
  induction h with
  | stay => exact more
  | move hmove _ ih => exact .move hmove (ih more)

theorem Trail.reaches (h : Trail cs places rest) : Reaches cs rest := by
  induction h with
  | stay => exact .refl _
  | move hmove _ ih => exact hmove.trans ih

/-- What is left at a place is the end of what was left at the place before. -/
theorem Trail.isChain (h : Trail cs places rest) :
    (cs :: places).IsChain fun before after => after <:+ before := by
  induction h with
  | stay => exact .singleton _
  | move hmove _ ih => exact .cons_cons hmove.suffix ih

theorem Trail.getLast? (h : Trail cs places rest) : (cs :: places).getLast? = some rest := by
  induction h with
  | stay => rfl
  | move _ _ ih => rw [List.getLast?_cons_cons, ih]

end Trails

end FieldDecl

end GraphWalk
