import Mathlib.Data.List.Basic
import GraphWalk.Json.Number

/-!
# Numerals of the query language

A number is written in a query as a sign, a whole part without a zero in front, and perhaps
a fraction and an exponent.  The text of every number is such a numeral: the shortest decimal
of a double has a first digit other than zero, unless it is zero itself.

## Main definitions

* `QuerySyntax.IsNumeral` — the numerals of the query language.

## Main results

* `Binary64.exponent_shortest` — only zero is written with the coefficient zero.
* `Number.isNumeral_chars` — **the text of a number is a numeral.**
-/

namespace GraphWalk

namespace QuerySyntax

/-- At least one digit, and nothing else. -/
def IsDigits (cs : List Char) : Prop := cs ≠ [] ∧ ∀ c ∈ cs, c.isDigit = true

/-- Digits with a zero in front only when there is no other. -/
def IsWhole (cs : List Char) : Prop := IsDigits cs ∧ (cs.head? = some '0' → cs = ['0'])

/-- Nothing, or a point and digits. -/
inductive IsFraction : List Char → Prop
  /-- There is no fraction. -/
  | none : IsFraction []
  /-- Digits behind a point. -/
  | point {digits : List Char} (h : IsDigits digits) : IsFraction ('.' :: digits)

/-- Nothing, or a letter and a whole number, which may have a sign. -/
inductive IsExponent : List Char → Prop
  /-- There is no exponent. -/
  | none : IsExponent []
  /-- A power of ten. -/
  | power {letter : Char} {sign digits : List Char} (hletter : letter ∈ ['e', 'E'])
      (hsign : sign ∈ [[], ['+'], ['-']]) (h : IsDigits digits) :
      IsExponent (letter :: (sign ++ digits))

/-- The numerals of the query language. -/
inductive IsNumeral : List Char → Prop
  /-- A sign, a whole part, a fraction and an exponent, of which the whole part is needed. -/
  | mk {sign whole fraction exponent : List Char} (hsign : sign ∈ [[], ['-']])
      (hwhole : IsWhole whole) (hfraction : IsFraction fraction)
      (hexponent : IsExponent exponent) :
      IsNumeral (sign ++ (whole ++ (fraction ++ exponent)))

/-- A numeral may do without an exponent. -/
theorem IsNumeral.of_fraction {sign whole fraction : List Char} (hsign : sign ∈ [[], ['-']])
    (hwhole : IsWhole whole) (hfraction : IsFraction fraction) :
    IsNumeral (sign ++ (whole ++ fraction)) := by
  have hnumeral := IsNumeral.mk hsign hwhole hfraction .none
  rwa [List.append_nil] at hnumeral

/-! ### Digits -/

theorem isDigits_toDigits (n : Nat) : IsDigits (Nat.toDigits 10 n) :=
  ⟨Nat.toDigits_ne_nil, fun _ hc => Nat.isDigit_of_mem_toDigits (by decide) (by decide) hc⟩

theorem head?_toDigits_ne {n : Nat} (h : n ≠ 0) : (Nat.toDigits 10 n).head? ≠ some '0' := by
  induction n using Nat.strongRecOn with
  | ind n ih =>
    by_cases hlt : n < 10
    · have hall : ∀ n < 10, n ≠ 0 → Nat.digitChar n ≠ '0' := by decide
      rw [Nat.toDigits_of_lt_base hlt, List.head?_cons]
      exact fun hhead => hall n hlt h (Option.some.inj hhead)
    · have hquotient : n / 10 ≠ 0 := by omega
      rw [Nat.toDigits_of_base_le (by decide) (Nat.not_lt.1 hlt),
        List.head?_append_of_ne_nil _ Nat.toDigits_ne_nil]
      exact ih (n / 10) (by omega) hquotient

theorem isWhole_toDigits (n : Nat) : IsWhole (Nat.toDigits 10 n) := by
  refine ⟨isDigits_toDigits n, fun hhead => ?_⟩
  by_cases h : n = 0
  · rw [h]
    rfl
  · exact absurd hhead (head?_toDigits_ne h)

theorem IsDigits.of_subset {cs ds : List Char} (h : IsDigits cs) (hne : ds ≠ []) (hsub : ds ⊆ cs) :
    IsDigits ds :=
  ⟨hne, fun c hc => h.2 c (hsub hc)⟩

theorem isDigit_of_mem_zeros {n : Nat} {c : Char} (h : c ∈ List.replicate n '0') :
    c.isDigit = true := by
  rw [List.eq_of_mem_replicate h]
  rfl

theorem IsDigits.append_zeros {cs : List Char} (h : IsDigits cs) (n : Nat) :
    IsDigits (cs ++ List.replicate n '0') := by
  refine ⟨List.append_ne_nil_of_left_ne_nil h.1 _, fun c hc => ?_⟩
  rcases List.mem_append.1 hc with hc | hc
  · exact h.2 c hc
  · exact isDigit_of_mem_zeros hc

theorem IsDigits.zeros_append {cs : List Char} (h : IsDigits cs) (n : Nat) :
    IsDigits (List.replicate n '0' ++ cs) := by
  refine ⟨List.append_ne_nil_of_right_ne_nil _ h.1, fun c hc => ?_⟩
  rcases List.mem_append.1 hc with hc | hc
  · exact isDigit_of_mem_zeros hc
  · exact h.2 c hc

/-- Digits that begin as those of a positive number do are a whole part. -/
theorem isWhole_of_head? {n : Nat} (h : n ≠ 0) {cs : List Char} (hcs : IsDigits cs)
    (hhead : cs.head? = (Nat.toDigits 10 n).head?) : IsWhole cs :=
  ⟨hcs, fun hzero => absurd (hhead.symm.trans hzero) (head?_toDigits_ne h)⟩

/-! ### Decimals -/

theorem isExponent_exponentChars (n : Int) : IsExponent ('e' :: Decimal.exponentChars n) := by
  have hsigned : ∀ sign ∈ [['+'], ['-']], IsExponent ('e' :: (sign ++ Nat.toDigits 10 n.natAbs)) :=
    fun sign hsign => .power (by decide) (List.mem_cons_of_mem _ hsign) (isDigits_toDigits n.natAbs)
  rw [Decimal.exponentChars]
  split
  · exact hsigned ['-'] (by decide)
  · exact hsigned ['+'] (by decide)

section Decimal

variable {sign : List Char} (hsign : sign ∈ [[], ['-']])

include hsign

/-- One digit, the others behind a point, and the exponent. -/
theorem isNumeral_scientific {d : Decimal} (h : d.coefficient ≠ 0) :
    IsNumeral (sign ++ d.scientific) := by
  have hdigits : IsDigits d.digits := isDigits_toDigits d.coefficient
  have htake : IsDigits (d.digits.take 1) := by
    refine hdigits.of_subset ?_ (List.take_subset 1 _)
    rw [Ne, List.take_eq_nil_iff]
    exact fun hnil => hnil.elim (by decide) hdigits.1
  have hwhole : IsWhole (d.digits.take 1) :=
    isWhole_of_head? h htake (by rw [List.head?_take, if_neg (by decide)]; rfl)
  rw [Decimal.scientific, List.append_assoc]
  refine .mk hsign hwhole ?_ (isExponent_exponentChars _)
  split
  · exact .none
  · next hmore =>
    rw [List.isEmpty_iff] at hmore
    exact .point (hdigits.of_subset hmore (List.drop_subset 1 _))

/-- The text of a decimal that has no zero in front is a numeral. -/
theorem isNumeral_decimal {d : Decimal} (h : d.coefficient = 0 → d.exponent = 0) :
    IsNumeral (sign ++ d.chars) := by
  have hdigits : IsDigits d.digits := isDigits_toDigits d.coefficient
  have hlength : 0 < d.digits.length := Nat.length_toDigits_pos
  have hzero : IsDigits ['0'] := isDigits_toDigits 0
  rw [Decimal.chars]
  split
  · have hwhole : IsWhole (d.digits ++ List.replicate d.exponent.toNat '0') := by
      by_cases hcoefficient : d.coefficient = 0
      · rw [h hcoefficient, Int.toNat_zero, List.replicate_zero, List.append_nil]
        exact isWhole_toDigits _
      · refine isWhole_of_head? hcoefficient (hdigits.append_zeros _) ?_
        exact List.head?_append_of_ne_nil _ hdigits.1
    exact .of_fraction hsign hwhole (.point hzero)
  next hwhole =>
  -- zero has been written by now
  have hcoefficient : d.coefficient ≠ 0 := by
    intro hcoefficient
    have hpoint : d.point = 1 + d.exponent := by
      rw [Decimal.point, Decimal.digits, hcoefficient]
      rfl
    have hexponent := h hcoefficient
    simp only [Decimal.maxPoint] at hwhole
    omega
  split
  · next hpoint =>
    have hpositive : 0 < d.point.toNat := by omega
    have hshort : d.point.toNat < d.digits.length := by
      have hsum : d.point = d.digits.length + d.exponent := rfl
      omega
    have htake : IsDigits (d.digits.take d.point.toNat) := by
      refine hdigits.of_subset ?_ (List.take_subset _ _)
      rw [Ne, List.take_eq_nil_iff]
      exact fun hnil => hnil.elim (by omega) hdigits.1
    have hdrop : IsDigits (d.digits.drop d.point.toNat) := by
      refine hdigits.of_subset ?_ (List.drop_subset _ _)
      rw [Ne, List.drop_eq_nil_iff]
      omega
    have hhead : (d.digits.take d.point.toNat).head? = d.digits.head? := by
      rw [List.head?_take, if_neg (by omega)]
    exact .of_fraction hsign (isWhole_of_head? hcoefficient htake hhead) (.point hdrop)
  split
  · have hzeros : IsDigits (List.replicate (-d.point).toNat '0' ++ d.digits) :=
      hdigits.zeros_append _
    have hnumeral := IsNumeral.of_fraction hsign (isWhole_toDigits 0) (.point hzeros)
    exact hnumeral
  · exact isNumeral_scientific hsign hcoefficient

end Decimal

end QuerySyntax

/-! ### The shortest decimal of a double -/

/-- Zeros at the end are not all there is. -/
theorem Decimal.coefficient_stripped_ne {d : Decimal} (h : d.coefficient ≠ 0) :
    d.stripped.coefficient ≠ 0 := by
  induction d using Decimal.stripped.induct with
  | case1 d hzeros ih =>
    rw [Decimal.stripped, dif_pos hzeros]
    refine ih ?_
    show d.coefficient / 10 ≠ 0
    omega
  | case2 d hzeros =>
    rw [Decimal.stripped, dif_neg hzeros]
    exact h

namespace Binary64

variable {x : Binary64}

theorem grid_quarter_pos (x : Binary64) (power : Int) : 0 < (x.grid power).quarter :=
  Nat.mul_pos (twoTo_pos _) (tenTo_pos _)

/-- Zero rounds to no other double. -/
theorem Grid.hits_zero (hx : x.significand ≠ 0) {g : Grid} (hg : 0 < g.quarter) :
    g.hits x 0 = false := by
  have hbelow : x.quartersBelow ≤ 2 := by
    rw [quartersBelow]
    split <;> omega
  have hlow : 0 < (4 * x.significand - x.quartersBelow) * g.quarter :=
    Nat.mul_pos (by omega) hg
  rw [Grid.hits, Nat.zero_mul]
  split
  · rw [decide_eq_false (Nat.not_le.2 hlow), Bool.false_and]
  · rw [decide_eq_false (Nat.not_lt.2 (Nat.le_of_lt hlow)), Bool.false_and]

theorem div_le_roundHalfEven (num den : Nat) : num / den ≤ roundHalfEven num den := by
  rw [roundHalfEven]
  split
  · exact Nat.le_refl _
  split
  · exact Nat.le_succ _
  · exact Nat.le_add_right _ _

/-- A multiple that is chosen for a double other than zero is not zero. -/
theorem Grid.ne_zero_of_choose? (hx : x.significand ≠ 0) {g : Grid} (hg : 0 < g.quarter) {n : Nat}
    (h : g.choose? x = some n) : n ≠ 0 := by
  have hbelow : ∀ m, g.hits x m = true → m ≠ 0 := by
    rintro m hm rfl
    rw [Grid.hits_zero hx hg] at hm
    cases hm
  rw [Grid.choose?] at h
  split at h
  · next hits _ =>
    have hround := div_le_roundHalfEven (4 * x.significand * g.quarter) g.step
    rw [← Option.some.inj h]
    exact Nat.ne_of_gt (Nat.lt_of_lt_of_le (Nat.pos_of_ne_zero (hbelow _ hits)) hround)
  · next hits _ =>
    rw [← Option.some.inj h]
    exact hbelow _ hits
  · rw [← Option.some.inj h]
    exact Nat.succ_ne_zero _
  · cases h

theorem coefficient_searchGrids_ne (hx : x.significand ≠ 0) (leading : Int) {count more : Nat}
    {d : Decimal} (h : searchGrids x leading count more = some d) : d.coefficient ≠ 0 := by
  induction more generalizing count with
  | zero => cases h
  | succ more ih =>
    rw [searchGrids] at h
    split at h
    · next n hn =>
      rw [← Option.some.inj h]
      exact Grid.ne_zero_of_choose? hx (grid_quarter_pos x _) hn
    · exact ih h

/-- Only zero is written with the coefficient zero. -/
theorem exponent_shortest (x : Binary64) (h : x.shortest.coefficient = 0) :
    x.shortest.exponent = 0 := by
  rw [shortest] at h ⊢
  split at h
  · next hzero => rw [if_pos hzero]
  · next hzero =>
    have hx : x.significand ≠ 0 := by
      rw [isZero, beq_iff_eq] at hzero
      exact hzero
    refine absurd h (Decimal.coefficient_stripped_ne ?_)
    cases hsearch : searchGrids x (leadingPower x.quotient.1 x.quotient.2) 1 17 with
    | none => exact hx
    | some d => exact coefficient_searchGrids_ne hx _ hsearch

end Binary64

open QuerySyntax in
/-- **The text of a number is a numeral.** -/
theorem Number.isNumeral_chars (n : Number) : IsNumeral n.chars := by
  cases n with
  | int value =>
    have hnumeral : ∀ sign ∈ [[], ['-']], IsNumeral (sign ++ Nat.toDigits 10 value.natAbs) := by
      intro sign hsign
      have hnumeral := IsNumeral.of_fraction hsign (isWhole_toDigits value.natAbs) .none
      rwa [List.append_nil] at hnumeral
    rw [Number.chars, Number.intChars]
    split
    · exact hnumeral _ (by decide)
    · exact hnumeral _ (by decide)
  | double x =>
    rw [Number.chars]
    split
    · exact isNumeral_decimal (by decide) x.exponent_shortest
    · exact isNumeral_decimal (by decide) x.exponent_shortest

end GraphWalk
