/-!
# Decimal numerals

Reading a natural number from a text that holds nothing else.

## Main definitions

* `digitValue c` — the value of an ASCII digit.
* `ofDigits cs` — the number a list of digits denotes.
* `readNatural? bound cs` — an optional plus sign and at least one digit, the value at most
  `bound`.
-/

namespace GraphWalk.Text

/-- The value of an ASCII digit. -/
def digitValue (c : Char) : Nat :=
  c.toNat - '0'.toNat

/-- The number that a list of decimal digits denotes, most significant digit first. -/
def ofDigits (cs : List Char) : Nat :=
  cs.foldl (fun n c => n * 10 + digitValue c) 0

@[simp] theorem ofDigits_nil : ofDigits [] = 0 := rfl

/-- The digits after an optional plus sign. -/
def dropPlus : List Char → List Char
  | '+' :: cs => cs
  | cs => cs

/-- The number written by a text: an optional plus sign, then at least one decimal digit and
nothing else.  None when the value exceeds the bound. -/
def readNatural? (bound : Nat) (cs : List Char) : Option Nat :=
  let digits := dropPlus cs
  if digits.isEmpty || !digits.all Char.isDigit then none
  else if ofDigits digits ≤ bound then some (ofDigits digits)
  else none

/-- The largest number of 64 bits. -/
def maxWord64 : Nat := 18446744073709551615

end GraphWalk.Text
