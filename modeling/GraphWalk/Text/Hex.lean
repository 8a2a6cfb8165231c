/-!
# Hexadecimal digits

Digits are written in lower case and read in either case.

## Main definitions

* `hexValue? c` — the value of a digit.
* `hexDigit d`, `hexDigit? c` — a digit and its value, the value known to be below 16.
-/

namespace GraphWalk.Text

/-- The value of a hexadecimal digit of either case. -/
def hexValue? (c : Char) : Option Nat :=
  if c.isDigit then some (c.toNat - '0'.toNat)
  else if 'a' ≤ c ∧ c ≤ 'f' then some (c.toNat - 'a'.toNat + 10)
  else if 'A' ≤ c ∧ c ≤ 'F' then some (c.toNat - 'A'.toNat + 10)
  else none

/-- The digit of a value. -/
def hexDigit (d : Fin 16) : Char :=
  Nat.digitChar d

/-- The value of a hexadecimal digit. -/
def hexDigit? (c : Char) : Option (Fin 16) :=
  (hexValue? c).bind fun n => if h : n < 16 then some ⟨n, h⟩ else none

theorem hexValue?_digitChar {n : Nat} (h : n < 16) : hexValue? (Nat.digitChar n) = some n := by
  have hall : ∀ n < 16, hexValue? (Nat.digitChar n) = some n := by decide
  exact hall n h

/-- The digit of a value has that value. -/
@[simp] theorem hexDigit?_hexDigit (d : Fin 16) : hexDigit? (hexDigit d) = some d := by
  revert d
  decide

/-- Digits are read back. -/
theorem mapM_hexDigit? (ds : List (Fin 16)) :
    (ds.map hexDigit).mapM hexDigit? = some ds := by
  induction ds with
  | nil => rfl
  | cons d ds ih => rw [List.map_cons, List.mapM_cons, hexDigit?_hexDigit, ih]; rfl

end GraphWalk.Text
