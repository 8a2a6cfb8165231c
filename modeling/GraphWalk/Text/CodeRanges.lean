/-!
# Sets of code points

A Unicode property is a set of code points.  It is written as the ascending list
of its maximal intervals, which is how the standard's own data files give it.

## Main definitions

* `CodeRanges` — the intervals, ends included.
* `CodeRanges.contains` — membership of a character.
-/

namespace GraphWalk.Text

/-- A set of code points: its maximal intervals in ascending order, ends included. -/
abbrev CodeRanges := List (Nat × Nat)

/-- The character lies in one of the intervals. -/
def CodeRanges.contains (ranges : CodeRanges) (c : Char) : Bool :=
  ranges.any fun range => range.1 ≤ c.toNat && c.toNat ≤ range.2

@[simp] theorem CodeRanges.contains_nil (c : Char) : CodeRanges.contains [] c = false := rfl

@[simp] theorem CodeRanges.contains_cons (range : Nat × Nat) (ranges : CodeRanges) (c : Char) :
    CodeRanges.contains (range :: ranges) c
      = ((range.1 ≤ c.toNat && c.toNat ≤ range.2) || CodeRanges.contains ranges c) := rfl

end GraphWalk.Text
