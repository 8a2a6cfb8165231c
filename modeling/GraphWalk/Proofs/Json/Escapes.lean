import Mathlib.Data.List.Basic
import GraphWalk.Json.Printer
import GraphWalk.Json.Reader

/-!
# Quoted texts are read back

Inside a quoted text a character stands for itself, or is written by a letter behind a
backslash, or by its four hexadecimal digits.  The reader undoes this, so two quoted texts
that look the same are the same, whatever follows them.

## Main results

* `Json.escapedChar_cases` — the three ways in which a character is written.
* `Written.stringBody?_escaped` — **a quoted text is read back** up to its closing quote.
* `Json.quoted_append_inj` — a quoted text is told from what follows.
-/

namespace GraphWalk

/-- A character is written by a letter, by its digits, or as it is. -/
theorem Json.escapedChar_cases (c : Char) :
    (∃ letter, Written.escape? letter = some c ∧ letter ≠ 'u' ∧ escapedChar c = ['\\', letter]) ∨
    (c.toNat < 0x20 ∧ escapedChar c = ['\\', 'u', '0', '0'] ++ hexPair c.toNat) ∨
    (c ≠ '"' ∧ c ≠ '\\' ∧ 0x20 ≤ c.toNat ∧ escapedChar c = [c]) := by
  rw [escapedChar]
  split
  · next hc => exact .inl ⟨'"', by rw [hc]; rfl, by decide, rfl⟩
  next hquote =>
  split
  · next hc => exact .inl ⟨'\\', by rw [hc]; rfl, by decide, rfl⟩
  next hslash =>
  split
  · next hc => exact .inl ⟨'b', by rw [hc]; rfl, by decide, rfl⟩
  split
  · next hc => exact .inl ⟨'f', by rw [hc]; rfl, by decide, rfl⟩
  split
  · next hc => exact .inl ⟨'n', by rw [hc]; rfl, by decide, rfl⟩
  split
  · next hc => exact .inl ⟨'r', by rw [hc]; rfl, by decide, rfl⟩
  split
  · next hc => exact .inl ⟨'t', by rw [hc]; rfl, by decide, rfl⟩
  split
  · next hcontrol => exact .inr (.inl ⟨hcontrol, rfl⟩)
  · next hcontrol => exact .inr (.inr ⟨hquote, hslash, Nat.not_lt.1 hcontrol, rfl⟩)

namespace Written

variable {c : Char}

/-- An escape of one letter stands for its character. -/
theorem stringBody?_escape {letter : Char} (h : escape? letter = some c) (hletter : letter ≠ 'u')
    (rest : List Char) :
    stringBody? ('\\' :: letter :: rest) = consCode c.toNat (stringBody? rest) := by
  rw [stringBody?, h]
  · rfl
  · intro a b c d after hu
    exact absurd hu hletter

/-- The digits of a character stand for it. -/
theorem stringBody?_code (h : c.toNat < 256) (rest : List Char) :
    stringBody? (['\\', 'u', '0', '0'] ++ Json.hexPair c.toNat ++ rest)
      = consCode c.toNat (stringBody? rest) := by
  have hhigh := Text.hexValue?_digitChar (n := c.toNat / 16) (by omega)
  have hlow := Text.hexValue?_digitChar (n := c.toNat % 16) (by omega)
  have hvalue : c.toNat / 16 * 16 + c.toNat % 16 = c.toNat := by omega
  have hword : hexWord? '0' '0' (Nat.digitChar (c.toNat / 16)) (Nat.digitChar (c.toNat % 16))
      = some c.toNat := by
    have hzero : Text.hexValue? '0' = some 0 := rfl
    rw [hexWord?, hzero, hhigh, hlow]
    simp [hvalue]
  show stringBody? ('\\' :: 'u' :: '0' :: '0' :: Nat.digitChar (c.toNat / 16)
    :: Nat.digitChar (c.toNat % 16) :: rest) = _
  rw [stringBody?, hword]
  rfl

/-- A character of a quoted text is read as itself, escaped if need be. -/
theorem stringBody?_escapedChar (c : Char) (rest : List Char) :
    stringBody? (Json.escapedChar c ++ rest) = consCode c.toNat (stringBody? rest) := by
  rcases Json.escapedChar_cases c with ⟨letter, hmeant, hletter, hc⟩ | ⟨hcontrol, hc⟩ | hplain
  · rw [hc]
    exact stringBody?_escape hmeant hletter rest
  · rw [hc]
    exact stringBody?_code (by omega) rest
  · obtain ⟨hquote, hslash, hvisible, hc⟩ := hplain
    rw [hc, List.singleton_append, stringBody?, if_neg]
    · simp [hslash, hvisible]
    · exact hquote
    · rintro a b c d after rfl
      exact absurd rfl hslash
    · rintro letter after rfl
      exact absurd rfl hslash

/-- **A quoted text is read back** up to its closing quote. -/
theorem stringBody?_escaped (cs rest : List Char) :
    stringBody? (cs.flatMap Json.escapedChar ++ '"' :: rest) = some (cs.map Char.toNat, rest) := by
  induction cs with
  | nil => rfl
  | cons c cs ih =>
    rw [List.flatMap_cons, List.append_assoc, stringBody?_escapedChar, ih]
    rfl

end Written

/-- A quoted text is told from what follows. -/
theorem Json.quoted_append_inj {s t : String} {rest after : List Char}
    (h : quoted s ++ rest = quoted t ++ after) : s = t ∧ rest = after := by
  have hread : ∀ (s : String) (rest : List Char),
      Written.stringBody? ((quoted s ++ rest).drop 1) = some (s.toList.map Char.toNat, rest) := by
    intro s rest
    rw [← Written.stringBody?_escaped, quoted, List.cons_append, List.append_assoc]
    rfl
  have hsame : some (s.toList.map Char.toNat, rest) = some (t.toList.map Char.toNat, after) := by
    rw [← hread, ← hread, h]
  obtain ⟨hcodes, hrest⟩ := Prod.mk.inj (Option.some.inj hsame)
  have hchars : s.toList = t.toList :=
    List.map_injective_iff.2 (fun _ _ hc => Char.toNat_inj.1 hc) hcodes
  exact ⟨String.toList_inj.1 hchars, hrest⟩

end GraphWalk
