import GraphWalk.Decimal.Shortest
import GraphWalk.Text.Numeral

/-!
# Numbers

A number is a whole number of 64 bits, signed or unsigned, or a finite double.
The two kinds are kept apart: no whole number equals a double.

## Main definitions

* `Number` — the two kinds.
* `Number.same` — equality of numbers, for which the two zeros of a double are one.
* `Number.chars` — the text of a number.
-/

namespace GraphWalk

/-- A whole number or a finite double. -/
inductive Number
  /-- A whole number that fits 64 bits with or without a sign. -/
  | int (value : Int)
  /-- A finite double. -/
  | double (value : Binary64)
  deriving DecidableEq, Repr, Inhabited

namespace Decimal

/-- The greatest count of digits before the point for which a number is written positionally. -/
def maxPoint : Int := 16

/-- The greatest count of zeros between the point and the first digit for which a number is
written positionally. -/
def maxLeadingZeros : Int := 4

/-- The sign and the digits of a power of ten. -/
def exponentChars (exponent : Int) : List Char :=
  (if exponent < 0 then '-' else '+') :: Nat.toDigits 10 exponent.natAbs

/-- One digit, the other digits after a point if there are any, and the power of ten. -/
def scientific (d : Decimal) : List Char :=
  let fraction := d.digits.drop 1
  d.digits.take 1 ++ (if fraction.isEmpty then [] else '.' :: fraction) ++
    'e' :: exponentChars (d.point - 1)

/-- The text of a decimal: positional with a digit on either side of the point while that needs
few zeros, otherwise in scientific notation. -/
def chars (d : Decimal) : List Char :=
  if 0 ≤ d.exponent ∧ d.point ≤ maxPoint then
    d.digits ++ List.replicate d.exponent.toNat '0' ++ ['.', '0']
  else if 0 < d.point ∧ d.point ≤ maxPoint then
    d.digits.take d.point.toNat ++ '.' :: d.digits.drop d.point.toNat
  else if -maxLeadingZeros ≤ d.point ∧ d.point ≤ 0 then
    ['0', '.'] ++ List.replicate (-d.point).toNat '0' ++ d.digits
  else d.scientific

end Decimal

namespace Number

/-- The largest signed magnitude of a negative whole number. -/
def maxNegative : Nat := 9223372036854775808

/-- Equality of numbers: a whole number never equals a double, and the two zeros of a double are
the same number. -/
def same : Number → Number → Bool
  | .int m, .int n => m == n
  | .double x, .double y => x.same y
  | _, _ => false

@[simp] theorem same_int (m n : Int) : same (.int m) (.int n) = (m == n) := rfl

@[simp] theorem same_double (x y : Binary64) : same (.double x) (.double y) = x.same y := rfl

@[simp] theorem same_int_double (m : Int) (y : Binary64) :
    same (.int m) (.double y) = false := rfl

@[simp] theorem same_double_int (x : Binary64) (n : Int) :
    same (.double x) (.int n) = false := rfl

@[simp] theorem same_self (n : Number) : n.same n = true := by
  cases n <;> simp

/-- The sign and the digits of a whole number. -/
def intChars (value : Int) : List Char :=
  (if value < 0 then ['-'] else []) ++ Nat.toDigits 10 value.natAbs

/-- The text of a number: the digits of a whole number, the shortest decimal of a double. -/
def chars : Number → List Char
  | .int value => intChars value
  | .double x => (if x.negative then ['-'] else []) ++ x.shortest.chars

end Number

end GraphWalk
