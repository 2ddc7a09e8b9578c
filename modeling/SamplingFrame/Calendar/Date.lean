import SamplingFrame.Number.Whole

/-!
# Calendar dates

Dates of the proleptic Gregorian calendar. The year before 1 is 0, and years from -262143 to 262142
are known.
-/

namespace SamplingFrame

/-- Every fourth year is a leap year, but of the centuries only every fourth one. -/
def isLeapYear (year : Int) : Bool := year % 4 == 0 && (year % 100 != 0 || year % 400 == 0)

/-- The number of days of a month. -/
def daysInMonth (year : Int) (month : Nat) : Nat :=
  if month = 2 then (if isLeapYear year then 29 else 28)
  else if month = 4 || month = 6 || month = 9 || month = 11 then 30
  else 31

/-- A day of the calendar. -/
structure Date where
  /-- The year. -/
  year : Int
  /-- The month, from 1. -/
  month : Nat
  /-- The day of the month, from 1. -/
  day : Nat
  /-- The year is known. -/
  year_mem : -262143 ≤ year ∧ year ≤ 262142
  /-- There is such a month. -/
  month_mem : 1 ≤ month ∧ month ≤ 12
  /-- The month has such a day. -/
  day_mem : 1 ≤ day ∧ day ≤ daysInMonth year month
  deriving DecidableEq, Repr

namespace Date

/-- The first known year. -/
def minYear : Int := -262143

/-- The last known year. -/
def maxYear : Int := 262142

/-- The date of given parts, if there is one. -/
def ofParts? (year : Int) (month day : Nat) : Option Date :=
  if h : (minYear ≤ year ∧ year ≤ maxYear) ∧ (1 ≤ month ∧ month ≤ 12) ∧
      (1 ≤ day ∧ day ≤ daysInMonth year month) then
    some ⟨year, month, day, h.1, h.2.1, h.2.2⟩
  else none

/-- Earlier dates come first. -/
def compare (a b : Date) : Ordering :=
  (Ord.compare a.year b.year).then
    ((Ord.compare a.month b.month).then (Ord.compare a.day b.day))

/-- The day after. -/
def next? (d : Date) : Option Date :=
  if d.day < daysInMonth d.year d.month then ofParts? d.year d.month (d.day + 1)
  else if d.month < 12 then ofParts? d.year (d.month + 1) 1
  else ofParts? (d.year + 1) 1 1

/-- The day before. -/
def previous? (d : Date) : Option Date :=
  if 1 < d.day then ofParts? d.year d.month (d.day - 1)
  else if 1 < d.month then ofParts? d.year (d.month - 1) (daysInMonth d.year (d.month - 1))
  else ofParts? (d.year - 1) 12 31

/-- Digits of a number, filled up with zeros to a width. -/
def padded (width n : Nat) : List Char := (Whole.digits n).leftpad width '0'

/-- A year of four digits; a sign and as many digits as it takes outside 0 to 9999. -/
def renderYear (year : Int) : List Char :=
  if year < 0 then '-' :: padded 4 year.natAbs
  else if year ≤ 9999 then padded 4 year.natAbs
  else '+' :: padded 4 year.natAbs

/-- Year, month and day with dashes between them. -/
def render (d : Date) : List Char :=
  renderYear d.year ++ '-' :: padded 2 d.month ++ '-' :: padded 2 d.day

/-- The parts of a date make that date. -/
theorem ofParts?_parts (d : Date) : ofParts? d.year d.month d.day = some d := by
  unfold ofParts?
  exact dif_pos ⟨d.year_mem, d.month_mem, d.day_mem⟩

/-- The parts of a date that was made are the given ones. -/
theorem ofParts?_eq_some {year : Int} {month day : Nat} {d : Date}
    (h : ofParts? year month day = some d) : d.year = year ∧ d.month = month ∧ d.day = day := by
  simp only [ofParts?] at h
  split at h
  · cases h
    exact ⟨rfl, rfl, rfl⟩
  · cases h

end Date

end SamplingFrame
