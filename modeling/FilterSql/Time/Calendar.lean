/-!
# The civil calendar

Dates of the proleptic Gregorian calendar and their day numbers. Day 0 is 1 January of the year
1970. The day of a date is a sum over the years and months before it; the date of a day is found
from an estimate of its year that is at most one off.
-/

namespace FilterSql

/-- A date of the proleptic Gregorian calendar; the year before the year 1 is the year 0. -/
structure Date where
  year : Int
  month : Nat
  day : Nat
  deriving DecidableEq, Repr

namespace Date

/-- Whether a year has 366 days. -/
def isLeapYear (year : Int) : Bool :=
  year % 4 == 0 && (year % 100 != 0 || year % 400 == 0)

/-- The days of the twelve months. -/
def monthLengths (leap : Bool) : List Nat :=
  [31, if leap then 29 else 28, 31, 30, 31, 30, 31, 31, 30, 31, 30, 31]

/-- The days from the start of the year 1 to the start of a year. -/
def daysBeforeYear (year : Int) : Int :=
  365 * (year - 1) + (year - 1) / 4 - (year - 1) / 100 + (year - 1) / 400

/-- The days from the start of the year 1 to day 0. -/
def epochOffset : Int := 719162

/-- Whether the month and the day of the month exist. -/
def isValid (d : Date) : Bool :=
  1 ≤ d.month && d.month ≤ 12 && 1 ≤ d.day &&
    d.day ≤ (monthLengths (isLeapYear d.year)).getD (d.month - 1) 0

/-- The number of a date's day. -/
def toDay (d : Date) : Int :=
  daysBeforeYear d.year - epochOffset +
    ((monthLengths (isLeapYear d.year)).take (d.month - 1)).foldl Nat.add 0 + (d.day : Int) - 1

/-- The year that holds the day `n` days after the start of the year 1. -/
def yearOf (n : Int) : Int :=
  let estimate := 400 * n / 146097 + 1
  if n < daysBeforeYear estimate then estimate - 1
  else if daysBeforeYear (estimate + 1) ≤ n then estimate + 1
  else estimate

/-- The month and the day of the month that lie `n` days into a year with the given months. -/
def monthAndDay (month : Nat) : List Nat → Nat → Nat × Nat
  | [], n => (month, n + 1)
  | length :: lengths, n =>
    if n < length then (month, n + 1) else monthAndDay (month + 1) lengths (n - length)

/-- The date of a day number. -/
def ofDay (day : Int) : Date :=
  let n := day + epochOffset
  let year := yearOf n
  let inYear := monthAndDay 1 (monthLengths (isLeapYear year)) (n - daysBeforeYear year).toNat
  ⟨year, inYear.1, inYear.2⟩

example : toDay ⟨1970, 1, 1⟩ = 0 := by decide
example : ofDay 0 = ⟨1970, 1, 1⟩ := by decide
example : ofDay (toDay ⟨2000, 2, 29⟩) = ⟨2000, 2, 29⟩ := by decide
example : ofDay (toDay ⟨-1, 12, 31⟩ + 1) = ⟨0, 1, 1⟩ := by decide

end Date

end FilterSql
