import GraphWalk.Time.Date

/-!
# Timestamps

A moment of universal time to the nanosecond.  It is written as date and time with a
`Z` behind, the fraction of the second in groups of three digits as far as needed.

## Main definitions

* `Timestamp` — a date and a time of day.
* `Timestamp.ahead` — the moment that a clock shows which is some minutes ahead of universal time.
* `Timestamp.chars`, `Timestamp.text` — its text.
-/

namespace GraphWalk

/-- A moment: a date and a time of day. -/
@[ext] structure Timestamp where
  /-- The day. -/
  date : Date
  /-- The hour. -/
  hour : Nat
  /-- The minute. -/
  minute : Nat
  /-- The second; 60 is a leap second. -/
  second : Nat
  /-- The nanosecond. -/
  nanosecond : Nat
  /-- A day has 24 hours. -/
  hour_lt : hour < 24
  /-- An hour has 60 minutes. -/
  minute_lt : minute < 60
  /-- A minute has 60 seconds and at most one leap second. -/
  second_le : second ≤ 60
  /-- A second has a thousand million nanoseconds. -/
  nanosecond_lt : nanosecond < 1000000000
  deriving DecidableEq, Repr

namespace Timestamp

instance : Inhabited Timestamp :=
  ⟨⟨default, 0, 0, 0, 0, by decide, by decide, by decide, by decide⟩⟩

/-- The moment of a date and a time of day; none when there is no such time. -/
def ofParts? (date : Date) (hour minute second nanosecond : Nat) : Option Timestamp :=
  if h : (hour < 24 ∧ minute < 60) ∧ second ≤ 60 ∧ nanosecond < 1000000000 then
    some ⟨date, hour, minute, second, nanosecond, h.1.1, h.1.2, h.2.1, h.2.2⟩
  else none

@[simp] theorem ofParts?_parts (t : Timestamp) :
    ofParts? t.date t.hour t.minute t.second t.nanosecond = some t := by
  simp [ofParts?, t.hour_lt, t.minute_lt, t.second_le, t.nanosecond_lt]

/-- The minutes of a day. -/
def minutesInDay : Nat := 24 * 60

/-- The moment at which a clock shows `t` that is `offset` minutes ahead of universal time, by less
than a day. -/
def ahead (t : Timestamp) (offset : Int) : Timestamp :=
  let minutes : Int := (t.hour * 60 + t.minute : Nat) - offset
  let ofDay := (minutes % minutesInDay).toNat
  { t with
    date :=
      if minutes < 0 then t.date.previous
      else if minutes < minutesInDay then t.date
      else t.date.next
    hour := ofDay / 60
    minute := ofDay % 60
    hour_lt := by simp only [ofDay, minutesInDay]; omega
    minute_lt := Nat.mod_lt _ (by decide) }

/-- A clock that is not ahead shows universal time. -/
@[simp] theorem ahead_zero (t : Timestamp) : t.ahead 0 = t := by
  have := t.hour_lt
  have := t.minute_lt
  ext1
  · simp only [ahead, minutesInDay, Int.sub_zero]
    rw [if_neg (by omega), if_pos (by omega)]
  all_goals simp [ahead, minutesInDay] <;> omega

/-! ### Text -/

/-- The decimal digits of a number, with noughts in front up to a width. -/
def padded (width n : Nat) : List Char :=
  (Nat.toDigits 10 n).leftpad width '0'

/-- A year has at least four digits.  A sign stands in front of the years that need it: those
before the year 0 and those with more than four digits. -/
def yearChars (year : Int) : List Char :=
  let digits := padded 4 year.natAbs
  if year < 0 then '-' :: digits else if year ≤ 9999 then digits else '+' :: digits

/-- The fraction of a second: nothing, milliseconds, microseconds or nanoseconds, whichever is the
shortest that tells all. -/
def fractionChars (nanosecond : Nat) : List Char :=
  if nanosecond = 0 then []
  else if nanosecond % 1000000 = 0 then '.' :: padded 3 (nanosecond / 1000000)
  else if nanosecond % 1000 = 0 then '.' :: padded 6 (nanosecond / 1000)
  else '.' :: padded 9 nanosecond

/-- The text of a moment. -/
def chars (t : Timestamp) : List Char :=
  yearChars t.date.year ++ '-' :: (padded 2 t.date.month ++ '-' :: (padded 2 t.date.day ++
    'T' :: (padded 2 t.hour ++ ':' :: (padded 2 t.minute ++ ':' :: (padded 2 t.second ++
      (fractionChars t.nanosecond ++ ['Z']))))))

/-- The text of a moment. -/
def text (t : Timestamp) : String :=
  String.ofList t.chars

end Timestamp

end GraphWalk
