import GraphWalk.Text.CodeRanges

/-!
# Blank characters

The Unicode property White_Space, and the text left after blanks are taken off
both ends.

## Main definitions

* `isBlank c` — the character has the property White_Space.
* `dropBlanks cs` — the text from its first character that is not blank.
* `trim cs` — the text without the blanks at either end.
-/

namespace GraphWalk.Text

/-- The code points with the property White_Space. -/
def whiteSpace : CodeRanges :=
  [(0x0009, 0x000d), (0x0020, 0x0020), (0x0085, 0x0085), (0x00a0, 0x00a0), (0x1680, 0x1680),
   (0x2000, 0x200a), (0x2028, 0x2029), (0x202f, 0x202f), (0x205f, 0x205f), (0x3000, 0x3000)]

/-- A blank character: one with the property White_Space. -/
def isBlank (c : Char) : Bool :=
  whiteSpace.contains c

/-- The text from its first character that is not blank. -/
def dropBlanks (cs : List Char) : List Char :=
  cs.dropWhile isBlank

@[simp] theorem dropBlanks_nil : dropBlanks [] = [] := rfl

theorem dropBlanks_cons_of_blank {c : Char} (h : isBlank c) (cs : List Char) :
    dropBlanks (c :: cs) = dropBlanks cs := by
  simp [dropBlanks, h]

theorem dropBlanks_cons_of_not_blank {c : Char} (h : isBlank c = false) (cs : List Char) :
    dropBlanks (c :: cs) = c :: cs := by
  simp [dropBlanks, h]

theorem length_dropBlanks_le (cs : List Char) : (dropBlanks cs).length ≤ cs.length :=
  (List.dropWhile_suffix isBlank).length_le

/-- The text without the blanks at either end. -/
def trim (cs : List Char) : List Char :=
  (dropBlanks (dropBlanks cs).reverse).reverse

/-- Nothing but blanks. -/
def isBlankText (cs : List Char) : Bool :=
  cs.all isBlank

end GraphWalk.Text
