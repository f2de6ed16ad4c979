/-!
# Calendar dates

Dates of the proleptic Gregorian calendar, numbered by days since 1970-01-01. Years run from March
inside the two conversions, so that the leap day is the last day of its year.
-/

namespace Reconciler

/-- A day of the proleptic Gregorian calendar, with astronomical year numbering. -/
structure Date where
  year : Int
  month : Nat
  day : Nat
deriving DecidableEq, Repr

namespace Date

/-- Whether a year has a leap day. -/
def isLeapYear (year : Int) : Bool :=
  year % 4 == 0 && (year % 100 != 0 || year % 400 == 0)

/-- The number of days of a month. -/
def daysInMonth (year : Int) (month : Nat) : Nat :=
  if month == 2 then if isLeapYear year then 29 else 28
  else if month == 4 || month == 6 || month == 9 || month == 11 then 30
  else 31

/-- Whether the calendar has the date. -/
def isValid (date : Date) : Bool :=
  1 ≤ date.month && date.month ≤ 12 && 1 ≤ date.day && date.day ≤ daysInMonth date.year date.month

/-- The number of days in a cycle of 400 years, after which the calendar repeats. -/
def daysPerCycle : Int :=
  146097

/-- The days from 0000-03-01 to 1970-01-01. -/
def daysToEpoch : Int :=
  719468

/-- The days from 1970-01-01 to a date. -/
def dayNumber (date : Date) : Int :=
  let marchYear := if date.month ≤ 2 then date.year - 1 else date.year
  let cycle := marchYear / 400
  let yearOfCycle := marchYear % 400
  let marchMonth := (date.month + 9) % 12
  let dayOfYear : Nat := (153 * marchMonth + 2) / 5 + date.day - 1
  let dayOfCycle := yearOfCycle * 365 + yearOfCycle / 4 - yearOfCycle / 100 + dayOfYear
  cycle * daysPerCycle + dayOfCycle - daysToEpoch

/-- The date a number of days after 1970-01-01. -/
def ofDayNumber (number : Int) : Date :=
  let shifted := number + daysToEpoch
  let cycle := shifted / daysPerCycle
  let dayOfCycle := (shifted % daysPerCycle).toNat
  let yearOfCycle :=
    (dayOfCycle - dayOfCycle / 1460 + dayOfCycle / 36524 - dayOfCycle / 146096) / 365
  let dayOfYear := dayOfCycle - (365 * yearOfCycle + yearOfCycle / 4 - yearOfCycle / 100)
  let marchMonth := (5 * dayOfYear + 2) / 153
  let day := dayOfYear - (153 * marchMonth + 2) / 5 + 1
  let month := if marchMonth < 10 then marchMonth + 3 else marchMonth - 9
  let marchYear := cycle * 400 + yearOfCycle
  ⟨if month ≤ 2 then marchYear + 1 else marchYear, month, day⟩

example : dayNumber ⟨1970, 1, 1⟩ = 0 ∧ dayNumber ⟨2000, 2, 29⟩ = 11016 ∧
    dayNumber ⟨0, 1, 1⟩ = -719528 := by decide

example : ofDayNumber (-1) = ⟨1969, 12, 31⟩ ∧ ofDayNumber 11016 = ⟨2000, 2, 29⟩ ∧
    ofDayNumber 11017 = ⟨2000, 3, 1⟩ := by decide

end Date

end Reconciler
