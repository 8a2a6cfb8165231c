import GraphWalk.Decimal.Power
import GraphWalk.Text.After
import GraphWalk.Text.Blank
import GraphWalk.Text.Numeral
import GraphWalk.Time.Timestamp

/-!
# Reading timestamps

A moment is read from a date, a time of day and an offset from universal time.  The
form is relaxed: months to seconds may have one digit, and blanks may stand before
every number and around the marks between them.

## Main definitions

* `Timestamp.digitsUpTo`, `Timestamp.number?` — numbers of bounded width.
* `Timestamp.date?`, `Timestamp.clock?`, `Timestamp.offset?` — the parts of a moment.
* `Timestamp.read?` — a whole text.
-/

namespace GraphWalk.Timestamp

/-! ### Numbers and marks -/

/-- The digits at the front of a text, at most `width` of them, and what follows them. -/
def digitsUpTo : (width : Nat) → List Char → List Char × List Char
  | 0, cs => ([], cs)
  | _ + 1, [] => ([], [])
  | width + 1, c :: cs =>
    if c.isDigit then
      let (digits, rest) := digitsUpTo width cs
      (c :: digits, rest)
    else ([], c :: cs)

@[simp] theorem digitsUpTo_zero (cs : List Char) : digitsUpTo 0 cs = ([], cs) := rfl

/-- A number of at least one digit and at most `width` digits, and what follows it. -/
def number? (width : Nat) (cs : List Char) : Option (Nat × List Char) :=
  let (digits, rest) := digitsUpTo width cs
  if digits.isEmpty then none else some (Text.ofDigits digits, rest)

/-- A number after blanks. -/
def part? (width : Nat) (cs : List Char) : Option (Nat × List Char) :=
  number? width (Text.dropBlanks cs)

/-- What follows a mark, which stands after blanks. -/
def afterMark? (mark : Char) (cs : List Char) : Option (List Char) :=
  Text.after? [mark] (Text.dropBlanks cs)

/-! ### Date -/

/-- The earliest year that is read. -/
def firstYear : Int := -262143

/-- The latest year that is read. -/
def lastYear : Int := 262142

/-- A year after blanks: up to four digits, or a sign and any number of digits. -/
def year? (cs : List Char) : Option (Int × List Char) :=
  match Text.dropBlanks cs with
  | '-' :: cs => (number? cs.length cs).map fun (n, rest) => (-(n : Int), rest)
  | '+' :: cs => (number? cs.length cs).map fun (n, rest) => ((n : Int), rest)
  | cs => (number? 4 cs).map fun (n, rest) => ((n : Int), rest)

/-- Year, month and day, with hyphens between them. -/
def date? (cs : List Char) : Option (Date × List Char) := do
  let (year, cs) ← year? cs
  let cs ← afterMark? '-' cs
  let (month, cs) ← part? 2 cs
  let cs ← afterMark? '-' cs
  let (day, cs) ← part? 2 cs
  let date ← Date.ofParts? year month day
  return (date, cs)

/-- What follows the mark between date and time: the letter T, or a space. -/
def afterDate? : List Char → Option (List Char)
  | [] => none
  | c :: cs => if c = 'T' ∨ c = 't' ∨ c = ' ' then some cs else none

/-! ### Time of day -/

/-- The nanoseconds of a fraction of a second, if there is one.  Digits after the ninth do not
count. -/
def nanoseconds? : List Char → Option (Nat × List Char)
  | '.' :: cs =>
    let (digits, rest) := digitsUpTo 9 cs
    if digits.isEmpty then none
    else some (Text.ofDigits digits * tenTo (9 - digits.length), rest.dropWhile Char.isDigit)
  | cs => some (0, cs)

/-- Hour, minute and second, with colons between them, and the fraction of the second. -/
def clock? (date : Date) (cs : List Char) : Option (Timestamp × List Char) := do
  let (hour, cs) ← part? 2 cs
  let cs ← afterMark? ':' cs
  let (minute, cs) ← part? 2 cs
  let cs ← afterMark? ':' cs
  let (second, cs) ← part? 2 cs
  let (nanosecond, cs) ← nanoseconds? cs
  let time ← ofParts? date hour minute second nanosecond
  return (time, cs)

/-! ### Offset from universal time -/

/-- The sign of an offset; the answer is yes for a minus sign. -/
def isBehind? : List Char → Option (Bool × List Char)
  | '+' :: cs => some (false, cs)
  | '-' :: cs => some (true, cs)
  | '\u2212' :: cs => some (true, cs)
  | _ => none

/-- A number of exactly two digits. -/
def pair? : List Char → Option (Nat × List Char)
  | a :: b :: cs => if a.isDigit && b.isDigit then some (Text.ofDigits [a, b], cs) else none
  | _ => none

/-- Hours and minutes with a sign, in minutes.  Colons and blanks may stand between them. -/
def minutes? (cs : List Char) : Option (Int × List Char) := do
  let (behind, cs) ← isBehind? cs
  let (hours, cs) ← pair? cs
  let (minutes, cs) ← pair? (cs.dropWhile fun c => c == ':' || Text.isBlank c)
  if minutes < 60 then
    let total : Int := (hours * 60 + minutes : Nat)
    return (if behind then -total else total, cs)
  else none

/-- An offset after blanks: the letter Z or the letters UTC for none at all, else hours and minutes
with a sign. -/
def offset? (cs : List Char) : Option (Int × List Char) :=
  match Text.dropBlanks cs with
  | 'Z' :: rest => some (0, rest)
  | 'z' :: rest => some (0, rest)
  | u :: t :: c :: rest =>
    if [u, t, c].map Char.toUpper = ['U', 'T', 'C'] then some (0, rest)
    else minutes? (u :: t :: c :: rest)
  | _ => none

/-! ### The whole text -/

/-- The year is one of those that are read. -/
def inRange (t : Timestamp) : Bool :=
  firstYear ≤ t.date.year && t.date.year ≤ lastYear

/-- The moment that a text tells.  The offset is less than a day, and the year is in range both as
it is written and in universal time. -/
def ofChars? (cs : List Char) : Option Timestamp := do
  let (date, cs) ← date? cs
  let cs ← afterDate? cs
  let (shown, cs) ← clock? date cs
  let (offset, cs) ← offset? cs
  let time := shown.ahead offset
  if Text.isBlankText cs && offset.natAbs < minutesInDay && shown.inRange && time.inRange then
    return time
  else none

/-- The moment that a text tells. -/
def read? (text : String) : Option Timestamp :=
  ofChars? text.toList

end GraphWalk.Timestamp
