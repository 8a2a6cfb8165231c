import Mathlib.Data.List.TakeWhile
import GraphWalk.Schema.Declaration

/-!
# Tokens of a schema text

A schema text is written token by token: words, and signs of one character, with blanks
wherever one likes and at least one where two words would run together.  The readers of
declarations and fields go through characters, and this is what each of their steps comes
to on such a text.

## Main definitions

* `Token` — a word or a sign.
* `Renders` — a text that shows some tokens.
* `Ends` — a word ends here.

## Main results

* `not_isWord_of_isBlank`, `isWord_of_isAsciiWord`, `not_isWord_of_mem_signs` — blanks, words and
  signs told apart.
-/

namespace GraphWalk

namespace Text

/-- The code points of blanks. -/
def blankPoints : List Nat :=
  [0x9, 0xa, 0xb, 0xc, 0xd, 0x20, 0x85, 0xa0, 0x1680, 0x2000, 0x2001, 0x2002, 0x2003, 0x2004,
   0x2005, 0x2006, 0x2007, 0x2008, 0x2009, 0x200a, 0x2028, 0x2029, 0x202f, 0x205f, 0x3000]

theorem mem_blankPoints {c : Char} (h : isBlank c = true) : c.toNat ∈ blankPoints := by
  simp only [isBlank, whiteSpace, CodeRanges.contains_cons, CodeRanges.contains_nil,
    Bool.or_eq_true, Bool.and_eq_true, decide_eq_true_eq, Bool.or_false] at h
  simp only [blankPoints, List.mem_cons, List.not_mem_nil, or_false]
  omega

/-- No blank is a character of a word or of a name. -/
theorem not_isWord_of_isBlank {c : Char} (h : isBlank c = true) :
    isWord c = false ∧ isName c = false := by
  have hall : ∀ n ∈ blankPoints,
      isWord (Char.ofNat n) = false ∧ isName (Char.ofNat n) = false := by
    decide +kernel
  have hpoint := hall _ (mem_blankPoints h)
  rw [Char.ofNat_toNat] at hpoint
  exact hpoint

theorem toNat_lt_of_isAsciiWord {c : Char} (h : isAsciiWord c = true) : c.toNat < 128 := by
  have hcases : (((c.isUpper || c.isLower) || c.isDigit) || c == '_') = true := h
  simp only [Bool.or_eq_true, beq_iff_eq] at hcases
  rcases hcases with ((hupper | hlower) | hdigit) | rfl
  · have hrange : 'A'.val ≤ c.val ∧ c.val ≤ 'Z'.val := of_decide_eq_true hupper
    exact Nat.lt_of_le_of_lt (UInt32.le_iff_toNat_le.1 hrange.2) (by decide)
  · have hrange := (Bool.and_eq_true_iff.1 hlower).2
    exact Nat.lt_of_le_of_lt (UInt32.le_iff_toNat_le.1 (of_decide_eq_true hrange)) (by decide)
  · have hrange := (Bool.and_eq_true_iff.1 hdigit).2
    exact Nat.lt_of_le_of_lt (UInt32.le_iff_toNat_le.1 (of_decide_eq_true hrange)) (by decide)
  · decide

/-- An ASCII letter, digit or underscore belongs to words and to names. -/
theorem isWord_of_isAsciiWord {c : Char} (h : isAsciiWord c = true) :
    isWord c = true ∧ isName c = true := by
  have hascii := toNat_lt_of_isAsciiWord h
  rw [isName_of_ascii hascii, isWord_of_ascii hascii]
  exact ⟨h, h⟩

theorem isBlank_of_isAsciiWord {c : Char} (h : isAsciiWord c = true) : isBlank c = false := by
  cases hblank : isBlank c with
  | false => rfl
  | true =>
    have hword := (not_isWord_of_isBlank hblank).1
    rw [(isWord_of_isAsciiWord h).1] at hword
    cases hword

end Text

namespace SchemaSyntax

open Text

/-- A token of a schema text. -/
inductive Token
  /-- A word. -/
  | word (name : String)
  /-- A sign of one character. -/
  | sign (c : Char)
  deriving DecidableEq, Repr

/-- The signs. -/
def signs : List Char := ['\x7b', '\x7d', '(', ')', '[', ']', ':', '!', '=', '|', '&', ',']

/-- Some ASCII letters, digits and underscores. -/
def IsWord (name : String) : Prop := name.toList ≠ [] ∧ ∀ c ∈ name.toList, isAsciiWord c = true

instance (name : String) : Decidable (IsWord name) :=
  decidable_of_iff (name.toList ≠ [] ∧ name.toList.all isAsciiWord = true)
    (and_congr_right' List.all_eq_true)

/-- Nothing but blanks. -/
def IsGap (gap : List Char) : Prop := ∀ c ∈ gap, isBlank c = true

/-- A text shows some tokens: blanks may stand before each of them and behind the last, and no word
runs on into what follows it. -/
inductive Renders : List Token → List Char → Prop
  /-- The end. -/
  | nil {gap : List Char} (blank : IsGap gap) : Renders [] gap
  /-- A sign. -/
  | sign {gap cs : List Char} {c : Char} {tokens : List Token} (blank : IsGap gap)
      (sign : c ∈ signs) (rest : Renders tokens cs) : Renders (.sign c :: tokens) (gap ++ c :: cs)
  /-- A word. -/
  | word {gap cs : List Char} {name : String} {tokens : List Token} (blank : IsGap gap)
      (word : IsWord name) (ends : ∀ c ∈ cs.head?, isAsciiWord c = false)
      (rest : Renders tokens cs) : Renders (.word name :: tokens) (gap ++ (name.toList ++ cs))

/-- No character of a word or of a name stands next. -/
def Ends (cs : List Char) : Prop := ∀ c ∈ cs.head?, Text.isWord c = false ∧ isName c = false

variable {cs gap : List Char} {c : Char} {name : String}

theorem not_isWord_of_mem_signs (h : c ∈ signs) :
    Text.isWord c = false ∧ isName c = false ∧ isBlank c = false := by
  have hall : (signs.all fun c => !(Text.isWord c || isName c || isBlank c)) = true := by
    decide +kernel
  have hc := List.all_eq_true.1 hall c h
  simpa only [Bool.not_eq_true', Bool.or_eq_false_iff, and_assoc] using hc

theorem not_mem_signs_of_isAsciiWord (h : isAsciiWord c = true) : c ∉ signs := by
  intro hsign
  have hword := (not_isWord_of_mem_signs hsign).1
  rw [(isWord_of_isAsciiWord h).1] at hword
  cases hword

/-- A word has a first character. -/
theorem IsWord.exists_cons (h : IsWord name) :
    ∃ c more, name.toList = c :: more ∧ isAsciiWord c = true := by
  cases hname : name.toList with
  | nil => exact absurd hname h.1
  | cons c more => exact ⟨c, more, rfl, h.2 c (hname ▸ List.mem_cons_self)⟩

/-! ### Blanks -/

theorem dropBlanks_gap (hgap : IsGap gap) (cs : List Char) :
    dropBlanks (gap ++ cs) = dropBlanks cs :=
  List.dropWhile_append_of_pos hgap

theorem append_dropBlanks (cs : List Char) :
    ∃ gap, IsGap gap ∧ cs = gap ++ Text.dropBlanks cs :=
  ⟨cs.takeWhile isBlank, fun _ hc => List.mem_takeWhile_imp hc,
    List.takeWhile_append_dropWhile.symm⟩

end SchemaSyntax

end GraphWalk
