/-!
# Dates

Days of the calendar in use today, carried back to all earlier years.  The year
before the year 1 is the year 0.

## Main definitions

* `isLeapYear`, `daysInMonth` — the lengths of years and months.
* `Date` — a day that exists.
* `Date.ofParts?` — the day of a year, a month and a day of the month.
* `Date.next`, `Date.previous` — the neighbours of a day.
-/

namespace GraphWalk

/-- The year has a 29th of February. -/
def isLeapYear (year : Int) : Bool :=
  year % 4 == 0 && (year % 100 != 0 || year % 400 == 0)

/-- The number of days of a month, for months from 1 to 12. -/
def daysInMonth (year : Int) (month : Nat) : Nat :=
  if month = 2 then if isLeapYear year then 29 else 28
  else if month = 4 ∨ month = 6 ∨ month = 9 ∨ month = 11 then 30
  else 31

/-- Every month has its 28th day. -/
theorem le_daysInMonth (year : Int) (month : Nat) : 28 ≤ daysInMonth year month := by
  unfold daysInMonth
  repeat' split
  all_goals omega

@[simp] theorem daysInMonth_one (year : Int) : daysInMonth year 1 = 31 := rfl

@[simp] theorem daysInMonth_twelve (year : Int) : daysInMonth year 12 = 31 := rfl

/-- A day that exists. -/
@[ext] structure Date where
  /-- The year. -/
  year : Int
  /-- The month, January being 1. -/
  month : Nat
  /-- The day of the month. -/
  day : Nat
  /-- The months count from 1. -/
  month_pos : 1 ≤ month
  /-- There are twelve months. -/
  month_le : month ≤ 12
  /-- The days count from 1. -/
  day_pos : 1 ≤ day
  /-- The month has such a day. -/
  day_le : day ≤ daysInMonth year month
  deriving DecidableEq, Repr

namespace Date

instance : Inhabited Date := ⟨⟨1970, 1, 1, by decide, by decide, by decide, by decide⟩⟩

/-- The day of a year, a month and a day of the month; none when there is no such day. -/
def ofParts? (year : Int) (month day : Nat) : Option Date :=
  if h : (1 ≤ month ∧ month ≤ 12) ∧ 1 ≤ day ∧ day ≤ daysInMonth year month then
    some ⟨year, month, day, h.1.1, h.1.2, h.2.1, h.2.2⟩
  else none

@[simp] theorem ofParts?_parts (d : Date) : ofParts? d.year d.month d.day = some d := by
  simp [ofParts?, d.month_pos, d.month_le, d.day_pos, d.day_le]

/-- The first day of a month. -/
def firstOf (year : Int) (month : Nat) (month_pos : 1 ≤ month) (month_le : month ≤ 12) : Date :=
  ⟨year, month, 1, month_pos, month_le, Nat.le_refl 1,
    Nat.le_trans (by decide) (le_daysInMonth year month)⟩

/-- The last day of a month. -/
def lastOf (year : Int) (month : Nat) (month_pos : 1 ≤ month) (month_le : month ≤ 12) : Date :=
  ⟨year, month, daysInMonth year month, month_pos, month_le,
    Nat.le_trans (by decide) (le_daysInMonth year month), Nat.le_refl _⟩

/-- The day after. -/
def next (d : Date) : Date :=
  if h : d.day < daysInMonth d.year d.month then
    { d with day := d.day + 1, day_pos := Nat.le_add_left 1 d.day, day_le := h }
  else if h : d.month < 12 then firstOf d.year (d.month + 1) (Nat.le_add_left 1 d.month) h
  else firstOf (d.year + 1) 1 (Nat.le_refl 1) (by decide)

/-- The day before. -/
def previous (d : Date) : Date :=
  if h : 1 < d.day then
    { d with day := d.day - 1, day_pos := by omega, day_le := by have := d.day_le; omega }
  else if h : 1 < d.month then
    lastOf d.year (d.month - 1) (by omega) (by have := d.month_le; omega)
  else lastOf (d.year - 1) 12 (by decide) (Nat.le_refl 12)

/-- The day before the day after is the day. -/
@[simp] theorem previous_next (d : Date) : d.next.previous = d := by
  have := d.day_pos
  have := d.day_le
  have := d.month_le
  unfold next
  split
  · have : 0 < d.day := d.day_pos
    simp [previous, this]
  · split
    · have hm : 0 < d.month := d.month_pos
      ext1
      · simp [previous, firstOf, lastOf, hm]
      · simp [previous, firstOf, lastOf, hm]
      · simp [previous, firstOf, lastOf, hm]; omega
    · have hm : d.month = 12 := by omega
      have hd : daysInMonth d.year d.month = 31 := by rw [hm]; rfl
      ext1
      · simp [previous, firstOf, lastOf]
      · simp [previous, firstOf, lastOf, hm]
      · simp only [previous, firstOf, lastOf]; simp; omega

/-- The day after the day before is the day. -/
@[simp] theorem next_previous (d : Date) : d.previous.next = d := by
  have := d.day_pos
  have := d.day_le
  have := d.month_pos
  unfold previous
  split
  · have h : d.day - 1 < daysInMonth d.year d.month := by omega
    ext1 <;> simp [next, h]; omega
  · split
    · have hm : d.month - 1 < 12 := by have := d.month_le; omega
      ext1 <;> simp [next, lastOf, firstOf, hm] <;> omega
    · ext1 <;> simp [next, lastOf, firstOf] <;> omega

end Date

end GraphWalk
