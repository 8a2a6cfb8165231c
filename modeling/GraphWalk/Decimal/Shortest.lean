import GraphWalk.Decimal.Binary64

/-!
# The shortest decimal of a double

Among the decimals that round to a double, the one with the fewest digits, and of
those the nearest.  Everything is exact arithmetic on natural numbers.

## Main definitions

* `Decimal` — a natural number times a power of ten.
* `Decimal.digits`, `Decimal.point` — its digits, and where the decimal point stands in them.
* `Binary64.Grid` — a double on the grid of the multiples of one power of ten.
* `Binary64.shortest` — the decimal that is written for a double.
-/

namespace GraphWalk

/-- The number `coefficient · 10 ^ exponent`. -/
structure Decimal where
  /-- The digits, read as one number. -/
  coefficient : Nat
  /-- The power of ten that the coefficient is multiplied by. -/
  exponent : Int
  deriving DecidableEq, Repr, Inhabited

namespace Decimal

/-- The digits of the coefficient. -/
def digits (d : Decimal) : List Char :=
  Nat.toDigits 10 d.coefficient

/-- How many digits stand before the decimal point, were the number written positionally. -/
def point (d : Decimal) : Int :=
  d.digits.length + d.exponent

/-- The same number without the zeros at the end of its coefficient. -/
def stripped (d : Decimal) : Decimal :=
  if h : d.coefficient ≠ 0 ∧ d.coefficient % 10 = 0 then
    stripped ⟨d.coefficient / 10, d.exponent + 1⟩
  else d
termination_by d.coefficient
decreasing_by exact Nat.div_lt_self (Nat.pos_of_ne_zero h.1) (by decide)

end Decimal

namespace Binary64

/-- How many decimal digits a natural number has. -/
def digitCount (n : Nat) : Nat :=
  (Nat.toDigits 10 n).length

/-- The exponent of ten of the first digit of a positive quotient. -/
def leadingPower (num den : Nat) : Int :=
  if den ≤ num then (digitCount (num / den) : Int) - 1
  else -(digitCount ((den + num - 1) / num - 1) : Int)

/-- A positive double and the ends of the interval that rounds to it, in quarters of the unit in
its last place, beside the multiples of a power of ten: a quarter counts `quarter`, and a step of
the grid counts `step`. -/
structure Grid where
  /-- The weight of a quarter of the double's unit. -/
  quarter : Nat
  /-- The weight of one step of the grid. -/
  step : Nat

/-- The double's interval beside the multiples of `10 ^ power`. -/
def grid (x : Binary64) (power : Int) : Grid where
  quarter := twoTo (x.exponent - 2).toNat * tenTo (-power).toNat
  step := tenTo power.toNat * twoTo (2 - x.exponent).toNat

/-- Quarters of a unit from the double down to the lower end of its interval.  The interval is
narrower below a power of two, where the doubles lie closer. -/
def quartersBelow (x : Binary64) : Nat :=
  if x.significand = twoTo 52 ∧ minExponent < x.exponent then 1 else 2

/-- The grid's multiple `n` rounds to the double.  The ends of the interval do so when the
significand is even. -/
def Grid.hits (g : Grid) (x : Binary64) (n : Nat) : Bool :=
  let low := (4 * x.significand - x.quartersBelow) * g.quarter
  let high := (4 * x.significand + 2) * g.quarter
  let here := n * g.step
  if x.significand % 2 = 0 then low ≤ here && here ≤ high else low < here && here < high

/-- Of the two multiples around the double, those that round to it; the nearer one when both do,
and the even one when they are equally near. -/
def Grid.choose? (g : Grid) (x : Binary64) : Option Nat :=
  let value := 4 * x.significand * g.quarter
  let below := value / g.step
  match g.hits x below, g.hits x (below + 1) with
  | true, true => some (roundHalfEven value g.step)
  | true, false => some below
  | false, true => some (below + 1)
  | false, false => none

/-- The first of the grids with `count`, `count + 1`, … digits that holds a decimal which rounds
to the double, looked for on `more` grids. -/
def searchGrids (x : Binary64) (leading : Int) : (count more : Nat) → Option Decimal
  | _, 0 => none
  | count, more + 1 =>
    let power := leading - count + 1
    match (x.grid power).choose? x with
    | some n => some ⟨n, power⟩
    | none => searchGrids x leading (count + 1) more

/-- The decimal written for a double: the fewest digits that read back, nearest to its value.
Seventeen digits always suffice. -/
def shortest (x : Binary64) : Decimal :=
  if x.isZero then ⟨0, 0⟩
  else
    ((searchGrids x (leadingPower x.quotient.1 x.quotient.2) 1 17).getD
      ⟨x.significand, 0⟩).stripped

end Binary64

end GraphWalk
