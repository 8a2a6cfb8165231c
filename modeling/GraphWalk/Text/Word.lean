import GraphWalk.Text.Age
import GraphWalk.Text.Alphabetic
import GraphWalk.Text.Mark
import GraphWalk.Text.Numeric

/-!
# Words and names

Two classes of characters that a run of text is made of.  Declarations are found
by *words*: letters, marks, decimal digits, connectors and joiners, as far as
Unicode 16 knows them.  Fields are read as *names*: letters, any number and the
underscore.  The two agree on ASCII.

## Main definitions

* `isWord c` — a character of a word.
* `isAlphanumeric c` — a letter or a number of any kind.
* `isName c` — a character of a name.
-/

namespace GraphWalk.Text

/-- The code points of general category Pc, and the two join controls. -/
def connector : CodeRanges :=
  [(0x005f, 0x005f), (0x200c, 0x200d), (0x203f, 0x2040), (0x2054, 0x2054), (0xfe33, 0xfe34),
   (0xfe4d, 0xfe4f), (0xff3f, 0xff3f)]

/-- An ASCII letter or digit, or the underscore. -/
def isAsciiWord (c : Char) : Bool :=
  c.isAlphanum || c == '_'

/-- A character of a word: alphabetic, a mark, a decimal digit, a connector or a joiner, and
assigned before Unicode 17. -/
def isWord (c : Char) : Bool :=
  if c.toNat < 128 then isAsciiWord c
  else
    (alphabetic.contains c || mark.contains c || decimalDigit.contains c || connector.contains c)
      && !ageSeventeen.contains c

/-- A letter or a number of any kind. -/
def isAlphanumeric (c : Char) : Bool :=
  if c.toNat < 128 then c.isAlphanum
  else alphabetic.contains c || numeric.contains c

/-- A character of a name: a letter, a number of any kind, or the underscore. -/
def isName (c : Char) : Bool :=
  isAlphanumeric c || c == '_'

theorem isWord_of_ascii {c : Char} (h : c.toNat < 128) : isWord c = isAsciiWord c := by
  simp [isWord, h]

theorem isAlphanumeric_of_ascii {c : Char} (h : c.toNat < 128) :
    isAlphanumeric c = c.isAlphanum := by
  simp [isAlphanumeric, h]

theorem isName_of_ascii {c : Char} (h : c.toNat < 128) : isName c = isAsciiWord c := by
  simp [isName, isAsciiWord, isAlphanumeric_of_ascii h]

end GraphWalk.Text
