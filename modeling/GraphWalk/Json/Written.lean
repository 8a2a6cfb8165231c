import GraphWalk.Json.Basic

/-!
# JSON as it is written

A JSON text before its meaning is settled: members in the order written with
repeated names kept, numbers as literals, and texts as code points, among which an
escape may leave half of a surrogate pair.  Reading a member that nobody asks for
stops here; a value is made of the rest.

## Main definitions

* `NumberLiteral` — the parts of a number as written.
* `NumberLiteral.value?` — the number they denote.
* `Written` — a JSON text as written.
* `Written.height` — how deeply its lists and objects are nested.
* `Written.content?` — what it tells, the members of every object in the order written.
* `Written.valueWithin?` — the value it denotes: the last of several members of one name counts.
-/

namespace GraphWalk

/-- A number as written. -/
structure NumberLiteral where
  /-- A minus sign stands first. -/
  negative : Bool
  /-- The digits before the point. -/
  whole : List Char
  /-- The digits after the point, if there is one. -/
  fraction : Option (List Char)
  /-- The exponent of ten, if one is written. -/
  exponent : Option Int
  deriving DecidableEq, Repr, Inhabited

namespace NumberLiteral

/-- Digits appended to a number as long as it fits 64 bits, and how many digits are left over. -/
def gather : Nat → List Char → Nat × Nat
  | n, [] => (n, 0)
  | n, c :: cs =>
    let next := n * 10 + Text.digitValue c
    if next ≤ Text.maxWord64 then gather next cs else (n, cs.length + 1)

@[simp] theorem gather_nil (n : Nat) : gather n [] = (n, 0) := rfl

/-- A whole number with its sign.  A negative zero, and a negative number that does not fit, are
doubles. -/
def whole? (negative : Bool) (n : Nat) : Option Number :=
  if !negative then some (.int n)
  else if n = 0 then some (.double (.zero true))
  else if n ≤ Number.maxNegative then some (.int (-n))
  else (Binary64.nearest? true n 1).map .double

/-- The number that a literal denotes.  Without a point, an exponent or digits left over it is a
whole number; otherwise the digits that fit 64 bits are scaled by a power of ten.  None when the
number is beyond the largest double. -/
def value? (l : NumberLiteral) : Option Number :=
  let (first, unfit) := gather 0 l.whole
  if unfit = 0 ∧ l.fraction.isNone ∧ l.exponent.isNone then whole? l.negative first
  else
    let digits := l.fraction.getD []
    let (significand, unread) := gather first digits
    let exponent : Int := unfit - (digits.length - unread : Nat) + l.exponent.getD 0
    (Binary64.scaled? l.negative significand exponent).map .double

end NumberLiteral

/-- A JSON text as written. -/
inductive Written
  /-- The word `null`. -/
  | null
  /-- One of the words `true` and `false`. -/
  | bool (value : Bool)
  /-- A number. -/
  | number (literal : NumberLiteral)
  /-- A quoted text: its code points, halves of surrogate pairs included. -/
  | string (codes : List Nat)
  /-- A bracketed list. -/
  | array (items : List Written)
  /-- The members of an object in the order written. -/
  | object (members : List (List Nat × Written))
  deriving Inhabited, Repr

namespace Written

/-- The code point is the first half of a surrogate pair. -/
def isHighSurrogate (n : Nat) : Bool := 0xd800 ≤ n && n < 0xdc00

/-- The code point is the second half of a surrogate pair. -/
def isLowSurrogate (n : Nat) : Bool := 0xdc00 ≤ n && n < 0xe000

/-- The code point that a surrogate pair stands for. -/
def pairCode (high low : Nat) : Nat :=
  0x10000 + (high - 0xd800) * 0x400 + (low - 0xdc00)

/-- The characters of a text.  None when half of a surrogate pair stands alone. -/
def decode? : List Nat → Option (List Char)
  | [] => some []
  | n :: rest =>
    if isHighSurrogate n then
      match rest with
      | [] => none
      | m :: rest =>
        if isLowSurrogate m then (decode? rest).map (Char.ofNat (pairCode n m) :: ·) else none
    else if isLowSurrogate n then none
    else (decode? rest).map (Char.ofNat n :: ·)

/-- The text of some code points. -/
def string? (codes : List Nat) : Option String :=
  (decode? codes).map String.ofList

mutual

/-- How deeply lists and objects are nested: nought for anything else. -/
def height : Written → Nat
  | .array items => itemsHeight items + 1
  | .object members => membersHeight members + 1
  | _ => 0

/-- The greatest height among the items. -/
def itemsHeight : List Written → Nat
  | [] => 0
  | item :: items => max item.height (itemsHeight items)

/-- The greatest height among the members. -/
def membersHeight : List (List Nat × Written) → Nat
  | [] => 0
  | (_, value) :: members => max value.height (membersHeight members)

end

mutual

/-- What a text tells, with the members of every object in the order written and repeated names
kept.  None when a number is out of range or half of a surrogate pair stands alone. -/
def content? : Written → Option Json
  | .null => some .null
  | .bool b => some (.bool b)
  | .number literal => literal.value?.map .number
  | .string codes => (string? codes).map .string
  | .array items => (itemContents? items).map .array
  | .object members => (memberContents? members).map .object

/-- What the items tell. -/
def itemContents? : List Written → Option (List Json)
  | [] => some []
  | item :: items => item.content?.bind fun v => (itemContents? items).map (v :: ·)

/-- The names of the members and what they tell, in the order written. -/
def memberContents? : List (List Nat × Written) → Option (List (String × Json))
  | [] => some []
  | (codes, value) :: members =>
    (string? codes).bind fun name =>
      value.content?.bind fun v => (memberContents? members).map ((name, v) :: ·)

end

/-- The deepest nesting of lists and objects that is read as a value. -/
def maxHeight : Nat := 127

/-- What a text tells inside `level` lists and objects.  None also when the nesting is too deep. -/
def contentWithin? (level : Nat) (w : Written) : Option Json :=
  if w.height + level ≤ maxHeight then w.content? else none

/-- The value that a text denotes inside `level` lists and objects: of several members of one name
the last one counts. -/
def valueWithin? (level : Nat) (w : Written) : Option Json :=
  (w.contentWithin? level).map Json.collected

/-- The text that is written. -/
def quoted? : Written → Option String
  | .string codes => string? codes
  | _ => none

end Written

end GraphWalk
