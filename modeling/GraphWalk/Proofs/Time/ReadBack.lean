import GraphWalk.Proofs.Text.Runs
import GraphWalk.Time.Reader

/-!
# Moments are read back from their texts

The parts of a moment are written with as many digits as they may have at least, and read with
as many as they may have at most.  So a part ends where the mark behind it stands, and the
number of its noughts does not count, except in the fraction of a second, which is read as so
many parts of a second as its digits tell.

## Main definitions

* `Timestamp.NoDigit` — a text that does not go on with a digit.

## Main results

* `Timestamp.ofDigits_padded` — noughts in front of a number do not count.
* `Timestamp.number?_padded` — a number is read back if no digit follows.
* `Timestamp.year?_yearChars` — **every year is read back**, with or without a sign.
* `Timestamp.nanoseconds?_fractionChars` — **every fraction is read back**, however short.
* `Timestamp.read?_text` — **every moment in range is read back.**
-/

namespace GraphWalk

namespace Timestamp

variable {cs digits rest : List Char} {width least n places : Nat} {c : Char}

/-! ### Digits -/

/-- The text does not go on with a digit. -/
def NoDigit (rest : List Char) : Prop := ∀ c ∈ rest.head?, c.isDigit = false

theorem noDigit_cons (h : c.isDigit = false) (rest : List Char) : NoDigit (c :: rest) := by
  intro d hd
  rw [← Option.some.inj hd]
  exact h

theorem ofDigits_eq (cs : List Char) : Text.ofDigits cs = Nat.ofDigitChars 10 cs 0 := by
  rw [Nat.ofDigitChars_eq_foldl, Text.ofDigits]
  congr 1
  funext n c
  rw [Text.digitValue, Nat.mul_comm]

/-- Noughts in front of a number do not count. -/
theorem ofDigits_padded (least n : Nat) : Text.ofDigits (padded least n) = n := by
  rw [ofDigits_eq, padded, List.leftpad, Nat.ofDigitChars_append,
    Nat.ofDigitChars_replicate_zero, Nat.mul_zero, Nat.ofDigitChars_ten_toDigits]

theorem isDigit_of_mem_padded (h : c ∈ padded least n) : c.isDigit = true := by
  rcases List.mem_append.1 h with hnought | hdigit
  · rw [(List.mem_replicate.1 hnought).2]
    rfl
  · exact Nat.isDigit_of_mem_toDigits (by decide) (by decide) hdigit

theorem exists_padded_eq_cons (least n : Nat) :
    ∃ c cs, padded least n = c :: cs ∧ c.isDigit = true := by
  have hne : padded least n ≠ [] := List.append_ne_nil_of_right_ne_nil _ Nat.toDigits_ne_nil
  obtain ⟨c, cs, hcs⟩ := List.exists_cons_of_ne_nil hne
  have hmem : c ∈ padded least n := by
    rw [hcs]
    exact List.mem_cons_self
  exact ⟨c, cs, hcs, isDigit_of_mem_padded hmem⟩

/-- A number that fits a width is written with as many digits. -/
theorem length_padded (hwidth : 0 < width) (h : n < tenTo width) :
    (padded width n).length = width := by
  have hlength : (Nat.toDigits 10 n).length ≤ width :=
    (Nat.length_toDigits_le_iff (by decide) hwidth).2 h
  rw [padded, List.length_leftpad]
  omega

/-! ### Numbers and marks -/

/-- Digits are read up to where there are no more. -/
theorem digitsUpTo_of_le (hdigits : ∀ c ∈ digits, c.isDigit = true)
    (hlength : digits.length ≤ width) (hrest : NoDigit rest) :
    digitsUpTo width (digits ++ rest) = (digits, rest) := by
  induction digits generalizing width with
  | nil =>
    cases width with
    | zero => rfl
    | succ width =>
      cases rest with
      | nil => rfl
      | cons c rest =>
        have hc : c.isDigit = false := hrest c rfl
        simp [digitsUpTo, hc]
  | cons c digits ih =>
    cases width with
    | zero => cases hlength
    | succ width =>
      have hc : c.isDigit = true := hdigits c List.mem_cons_self
      have hmore := ih (fun d hd => hdigits d (List.mem_cons_of_mem c hd))
        (Nat.le_of_succ_le_succ hlength)
      simp [digitsUpTo, hc, hmore]

/-- A number is read back if no digit follows. -/
theorem number?_padded (hlength : (padded least n).length ≤ width) (hrest : NoDigit rest) :
    number? width (padded least n ++ rest) = some (n, rest) := by
  have hdigits := digitsUpTo_of_le (fun c => isDigit_of_mem_padded) hlength hrest
  obtain ⟨c, cs, hcs, -⟩ := exists_padded_eq_cons least n
  have hsome : (padded least n).isEmpty = false := by
    rw [hcs]
    rfl
  simp only [number?, hdigits, hsome, ofDigits_padded, Bool.false_eq_true, if_false]

theorem not_isBlank_of_isDigit (h : c.isDigit = true) : Text.isBlank c = false := by
  obtain ⟨hlow, hhigh⟩ : 48 ≤ c.toNat ∧ c.toNat ≤ 57 := by
    simpa [Char.isDigit, UInt32.le_iff_toNat_le] using h
  simp only [Text.isBlank, Text.whiteSpace, Text.CodeRanges.contains_cons,
    Text.CodeRanges.contains_nil, Bool.or_false, Bool.or_eq_false_iff, Bool.and_eq_false_iff,
    decide_eq_false_iff_not]
  omega

theorem dropBlanks_padded (least n : Nat) (rest : List Char) :
    Text.dropBlanks (padded least n ++ rest) = padded least n ++ rest := by
  obtain ⟨c, cs, hcs, hc⟩ := exists_padded_eq_cons least n
  rw [hcs, List.cons_append, Text.dropBlanks_cons_of_not_blank (not_isBlank_of_isDigit hc)]

/-- A part of two digits is read back if no digit follows. -/
theorem part?_padded (h : n < 100) (hrest : NoDigit rest) :
    part? 2 (padded 2 n ++ rest) = some (n, rest) := by
  have hlength : (padded 2 n).length = 2 := length_padded (by decide) h
  rw [part?, dropBlanks_padded, number?_padded (Nat.le_of_eq hlength) hrest]

theorem afterMark?_cons {mark : Char} (h : Text.isBlank mark = false) (rest : List Char) :
    afterMark? mark (mark :: rest) = some rest := by
  rw [afterMark?, Text.dropBlanks_cons_of_not_blank h]
  exact Text.after?_append [mark] rest

/-! ### Dates -/

theorem year?_minus (cs : List Char) : year? ('-' :: cs)
    = (number? cs.length cs).map fun (n, rest) => (-(n : Int), rest) := rfl

theorem year?_plus (cs : List Char) : year? ('+' :: cs)
    = (number? cs.length cs).map fun (n, rest) => ((n : Int), rest) := rfl

/-- **Every year is read back**, with or without a sign. -/
theorem year?_yearChars (year : Int) (hrest : NoDigit rest) :
    year? (yearChars year ++ rest) = some (year, rest) := by
  have hsigned : number? (padded 4 year.natAbs ++ rest).length (padded 4 year.natAbs ++ rest)
      = some (year.natAbs, rest) := by
    apply number?_padded _ hrest
    rw [List.length_append]
    exact Nat.le_add_right _ _
  rw [yearChars]
  split
  · next hnegative =>
    have hyear : -(year.natAbs : Int) = year := by omega
    rw [List.cons_append, year?_minus, hsigned]
    simp only [Option.map_some, hyear]
  next hpositive =>
  have hyear : (year.natAbs : Int) = year := by omega
  split
  · next hfour =>
    have hsmall : year.natAbs < 10000 := by omega
    have hwidth : (padded 4 year.natAbs).length = 4 := length_padded (by decide) hsmall
    have hnumber := number?_padded (Nat.le_of_eq hwidth) hrest
    obtain ⟨c, cs, hcs, hc⟩ := exists_padded_eq_cons 4 year.natAbs
    rw [year?, dropBlanks_padded]
    rw [hcs, List.cons_append] at hnumber ⊢
    -- the first character is a digit, so it is no sign
    split
    · next heq => rw [(List.cons.inj heq).1] at hc; cases hc
    · next heq => rw [(List.cons.inj heq).1] at hc; cases hc
    · rw [hnumber]
      simp only [Option.map_some, hyear]
  · rw [List.cons_append, year?_plus, hsigned]
    simp only [Option.map_some, hyear]

theorem daysInMonth_lt (year : Int) (month : Nat) : daysInMonth year month < 100 := by
  unfold daysInMonth
  split
  · split <;> decide
  · split <;> decide

theorem date?_chars (d : Date) (hrest : NoDigit rest) :
    date? (yearChars d.year ++ '-' :: (padded 2 d.month ++ '-' :: (padded 2 d.day ++ rest)))
      = some (d, rest) := by
  have hmonth : d.month < 100 := Nat.lt_of_le_of_lt d.month_le (by decide)
  have hday : d.day < 100 := Nat.lt_of_le_of_lt d.day_le (daysInMonth_lt d.year d.month)
  have hstop : ∀ rest, NoDigit ('-' :: rest) := noDigit_cons rfl
  have hmark : ∀ rest, afterMark? '-' ('-' :: rest) = some rest := afterMark?_cons rfl
  simp only [date?, Option.bind_eq_bind, year?_yearChars d.year (hstop _), Option.bind_some, hmark,
    part?_padded hmonth (hstop _), part?_padded hday hrest, Date.ofParts?_parts]
  rfl

/-! ### Times of day -/

/-- A fraction of some places is read back as so many parts of a second. -/
theorem nanoseconds?_padded (hpos : 0 < places) (hle : places ≤ 9) (h : n < tenTo places)
    (hrest : NoDigit rest) :
    nanoseconds? ('.' :: (padded places n ++ rest)) = some (n * tenTo (9 - places), rest) := by
  have hlength := length_padded hpos h
  have hfits : (padded places n).length ≤ 9 := by omega
  have hdigits := digitsUpTo_of_le (fun c => isDigit_of_mem_padded) hfits hrest
  have hsome : (padded places n).isEmpty = false := by
    rw [List.isEmpty_eq_false_iff_exists_mem, ← List.length_pos_iff_exists_mem]
    omega
  have hstop : rest.dropWhile Char.isDigit = rest := (Text.span_of_head? hrest).2
  simp only [nanoseconds?, hdigits, hsome, ofDigits_padded, hlength, hstop, Bool.false_eq_true,
    if_false]

/-- **Every fraction is read back**, however short it is. -/
theorem nanoseconds?_fractionChars (h : n < 1000000000) (rest : List Char) :
    nanoseconds? (fractionChars n ++ 'Z' :: rest) = some (n, 'Z' :: rest) := by
  have hrest : NoDigit ('Z' :: rest) := noDigit_cons rfl rest
  rw [fractionChars]
  split
  · next hnone =>
    rw [hnone]
    rfl
  split
  · next hmilli =>
    have hn : n / 1000000 * tenTo (9 - 3) = n := Nat.div_mul_cancel (Nat.dvd_of_mod_eq_zero hmilli)
    have hsmall : n / 1000000 < 1000 := by omega
    rw [List.cons_append, nanoseconds?_padded (by decide) (by decide) hsmall hrest, hn]
  split
  · next hmicro =>
    have hn : n / 1000 * tenTo (9 - 6) = n := Nat.div_mul_cancel (Nat.dvd_of_mod_eq_zero hmicro)
    have hsmall : n / 1000 < 1000000 := by omega
    rw [List.cons_append, nanoseconds?_padded (by decide) (by decide) hsmall hrest, hn]
  · have hn : n * tenTo (9 - 9) = n := Nat.mul_one n
    rw [List.cons_append, nanoseconds?_padded (by decide) (by decide) h hrest, hn]

theorem clock?_chars (t : Timestamp) (rest : List Char) :
    clock? t.date (padded 2 t.hour ++ ':' :: (padded 2 t.minute ++ ':' :: (padded 2 t.second ++
      (fractionChars t.nanosecond ++ 'Z' :: rest)))) = some (t, 'Z' :: rest) := by
  have hhour : t.hour < 100 := Nat.lt_trans t.hour_lt (by decide)
  have hminute : t.minute < 100 := Nat.lt_trans t.minute_lt (by decide)
  have hsecond : t.second < 100 := Nat.lt_of_le_of_lt t.second_le (by decide)
  have hfraction : NoDigit (fractionChars t.nanosecond ++ 'Z' :: rest) := by
    rw [fractionChars]
    split
    · exact noDigit_cons rfl rest
    split
    · exact noDigit_cons rfl _
    split
    · exact noDigit_cons rfl _
    · exact noDigit_cons rfl _
  have hstop : ∀ rest, NoDigit (':' :: rest) := noDigit_cons rfl
  have hmark : ∀ rest, afterMark? ':' (':' :: rest) = some rest := afterMark?_cons rfl
  simp only [clock?, Option.bind_eq_bind, part?_padded hhour (hstop _), Option.bind_some, hmark,
    part?_padded hminute (hstop _), part?_padded hsecond hfraction,
    nanoseconds?_fractionChars t.nanosecond_lt, ofParts?_parts]
  rfl

/-! ### Whole texts -/

/-- **Every moment in range is read back.** -/
theorem read?_text {t : Timestamp} (h : t.inRange = true) : read? t.text = some t := by
  have hstop : ∀ rest, NoDigit ('T' :: rest) := noDigit_cons rfl
  have hclock := clock?_chars t []
  have hoffset : offset? ['Z'] = some (0, []) := rfl
  have hblank : Text.isBlankText [] = true := rfl
  have hminutes : Int.natAbs 0 < minutesInDay := by decide
  rw [read?, text, String.toList_ofList, chars]
  simp only [ofChars?, Option.bind_eq_bind, date?_chars t.date (hstop _),
    Option.bind_some, afterDate?, true_or, if_true, hclock, hoffset, ahead_zero, hblank, hminutes,
    h, decide_true, Bool.and_self]
  rfl

end Timestamp

end GraphWalk
