import Mathlib.Data.Nat.Basic

/-!
# The calendar

The proleptic Gregorian calendar from 1970 on, counted in days: a date is the days of the years
before it, the days of the months before it, and the days of its month before it.  Then the other
way, from the year 0 on: the year, the month and the day of the month of a day.
-/

namespace RlcdDeck.Calendar

/-! ### Days of dates -/

def isLeap (year : ℕ) : Bool := year % 4 == 0 && (year % 100 != 0 || year % 400 == 0)

def daysInYear (year : ℕ) : ℕ := if isLeap year then 366 else 365

/-- The days of a month, counted from 1. -/
def daysIn (year month : ℕ) : ℕ :=
  match month with
  | 2 => if isLeap year then 29 else 28
  | 4 | 6 | 9 | 11 => 30
  | _ => 31

/-- The days from the start of 1970 to the start of the year that is `n` years later. -/
def daysBeforeYear : ℕ → ℕ
  | 0 => 0
  | n + 1 => daysBeforeYear n + daysInYear (1970 + n)

/-- The days of a year before a month. -/
def daysBeforeMonth (year : ℕ) : ℕ → ℕ
  | 0 => 0
  | 1 => 0
  | month + 2 => daysBeforeMonth year (month + 1) + daysIn year (month + 1)

/-- The days since 1970-01-01. -/
def dayNumber (year month day : ℕ) : ℕ :=
  daysBeforeYear (year - 1970) + daysBeforeMonth year month + (day - 1)

/-! ### Dates of days -/

/-- The first day of a year. -/
def yearStart (year : ℕ) : ℕ := 365 * year + (year + 3) / 4 + (year + 399) / 400 - (year + 99) / 100

/-- The year of a day: 400 years have 146097 days, so that the quotient is off by one at most. -/
def yearOf (day : ℕ) : ℕ :=
  let guess := day * 400 / 146097
  if day < yearStart guess then guess - 1
  else if yearStart (guess + 1) ≤ day then guess + 1
  else guess

/-- The month and the day of the month, `rest` days after the start of `month`, with at most `fuel`
months after it. -/
def monthDay (year : ℕ) : (fuel month rest : ℕ) → ℕ × ℕ
  | 0, month, rest => (month, rest + 1)
  | fuel + 1, month, rest =>
    if rest < daysIn year month then (month, rest + 1)
    else monthDay year fuel (month + 1) (rest - daysIn year month)

/-- The year, the month and the day of the month of a day. -/
def date (day : ℕ) : ℕ × ℕ × ℕ := (yearOf day, monthDay (yearOf day) 11 1 (day - yearStart (yearOf day)))

/-- The day of a date. -/
def dayOf (year month day : ℕ) : ℕ := yearStart year + daysBeforeMonth year month + (day - 1)

end RlcdDeck.Calendar
