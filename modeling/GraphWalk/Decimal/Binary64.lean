import GraphWalk.Decimal.Power

/-!
# Double precision numbers

A finite IEEE 754 double as a sign, a significand and a power of two, with
rounding of exact quotients to the nearest double.

## Main definitions

* `Binary64` — a finite double, `± significand · 2 ^ exponent`.
* `Binary64.IsCanonical` — the significand and the exponent are the standard's own.
* `Binary64.nearest?` — the double nearest to a quotient of natural numbers.
* `Binary64.scaled?` — a significand times a power of ten, rounded at each of three steps.
-/

namespace GraphWalk

/-- A finite double: `significand · 2 ^ exponent`, negated when `negative`. -/
structure Binary64 where
  /-- The sign bit. -/
  negative : Bool
  /-- At most 53 bits. -/
  significand : Nat
  /-- The power of two that the significand is multiplied by. -/
  exponent : Int
  deriving DecidableEq, Repr, Inhabited

namespace Binary64

/-- The least exponent, that of the subnormal numbers. -/
def minExponent : Int := -1074

/-- The greatest exponent. -/
def maxExponent : Int := 971

/-- The significand and the exponent are those of the interchange format: the significand
has 53 bits unless the exponent is the least one. -/
def IsCanonical (x : Binary64) : Prop :=
  x.significand < twoTo 53 ∧ minExponent ≤ x.exponent ∧ x.exponent ≤ maxExponent ∧
    (twoTo 52 ≤ x.significand ∨ x.exponent = minExponent)

instance (x : Binary64) : Decidable x.IsCanonical := by
  unfold IsCanonical; infer_instance

/-- Zero with the given sign. -/
def zero (negative : Bool) : Binary64 := ⟨negative, 0, minExponent⟩

/-- The number is a zero of either sign. -/
def isZero (x : Binary64) : Bool := x.significand == 0

@[simp] theorem isZero_zero (negative : Bool) : (zero negative).isZero = true := rfl

/-- The same magnitude with the opposite sign. -/
def neg (x : Binary64) : Binary64 := { x with negative := !x.negative }

@[simp] theorem neg_neg (x : Binary64) : x.neg.neg = x := by
  cases x; simp [neg]

/-- The same number: equal, or both a zero. -/
def same (x y : Binary64) : Bool :=
  x == y || (x.isZero && y.isZero)

@[simp] theorem same_self (x : Binary64) : x.same x = true := by simp [same]

theorem same_comm (x y : Binary64) : x.same y = y.same x := by
  simp only [same, Bool.and_comm, BEq.comm]

/-! ### Rounding -/

/-- The quotient rounded to the nearest natural number, a half to the even one. -/
def roundHalfEven (num den : Nat) : Nat :=
  let quotient := num / den
  let rest := num % den
  if 2 * rest < den then quotient
  else if den < 2 * rest then quotient + 1
  else quotient + quotient % 2

/-- The two sides of the quotient `num / (den · 2 ^ exponent)`. -/
def overPower (num den : Nat) (exponent : Int) : Nat × Nat :=
  (num * twoTo (-exponent).toNat, den * twoTo exponent.toNat)

/-- The exponent of the double that a positive quotient rounds to: the quotient divided by its
power of two lies below `2 ^ 53`, and not below `2 ^ 52` unless the exponent is the least. -/
def exponentFor (num den : Nat) : Int :=
  let guess := max ((num.log2 : Int) - den.log2 - 53) minExponent
  let (scaled, unit) := overPower num den guess
  if twoTo 53 ≤ scaled / unit then guess + 1 else guess

/-- The double nearest to `num / den`, a half going to the even significand.  None when the
quotient is beyond the largest double. -/
def nearest? (negative : Bool) (num den : Nat) : Option Binary64 :=
  if num = 0 then some (zero negative)
  else
    let exponent := exponentFor num den
    let (scaled, unit) := overPower num den exponent
    let significand := roundHalfEven scaled unit
    let (significand, exponent) :=
      if significand = twoTo 53 then (twoTo 52, exponent + 1) else (significand, exponent)
    if exponent ≤ maxExponent then some ⟨negative, significand, exponent⟩ else none

@[simp] theorem nearest?_zero (negative : Bool) (den : Nat) :
    nearest? negative 0 den = some (zero negative) := rfl

/-- The magnitude as a quotient of natural numbers. -/
def quotient (x : Binary64) : Nat × Nat :=
  (x.significand * twoTo x.exponent.toNat, twoTo (-x.exponent).toNat)

/-- The product of two magnitudes, rounded; the sign is the first number's. -/
def mul? (x y : Binary64) : Option Binary64 :=
  nearest? x.negative (x.quotient.1 * y.quotient.1) (x.quotient.2 * y.quotient.2)

/-- The quotient of two magnitudes, rounded; the sign is the first number's. -/
def div? (x y : Binary64) : Option Binary64 :=
  nearest? x.negative (x.quotient.1 * y.quotient.2) (x.quotient.2 * y.quotient.1)

/-! ### Powers of ten -/

/-- The largest power of ten that is a double. -/
def maxPowerOfTen : Nat := 308

/-- The double nearest to a power of ten, which is at most `10 ^ 308`. -/
def powerOfTen? (n : Nat) : Option Binary64 :=
  nearest? false (tenTo n) 1

/-- A double divided by a power of ten, in steps of at most `10 ^ 308`. -/
def dividedByTen? (x : Binary64) (n : Nat) : Option Binary64 :=
  if n ≤ maxPowerOfTen then (powerOfTen? n).bind (div? x)
  else if x.isZero then some x
  else
    ((powerOfTen? maxPowerOfTen).bind (div? x)).bind fun y => dividedByTen? y (n - maxPowerOfTen)
termination_by n
decreasing_by simp only [maxPowerOfTen] at *; omega

/-- A double multiplied by a power of ten; none when the result is beyond the largest double. -/
def timesTen? (x : Binary64) (n : Nat) : Option Binary64 :=
  if n ≤ maxPowerOfTen then (powerOfTen? n).bind (mul? x)
  else if x.isZero then some x
  else none

/-- `significand · 10 ^ exponent`, rounded at each step: the significand to a double, the power
of ten to a double, and their product or quotient.  None when beyond the largest double. -/
def scaled? (negative : Bool) (significand : Nat) (exponent : Int) : Option Binary64 :=
  (nearest? negative significand 1).bind fun x =>
    if 0 ≤ exponent then x.timesTen? exponent.toNat else x.dividedByTen? (-exponent).toNat

end Binary64

end GraphWalk
