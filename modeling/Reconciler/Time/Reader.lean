import Reconciler.Text.Blank
import Reconciler.Text.Digits
import Reconciler.Time.Timestamp

/-!
# Reading timestamps

A timestamp is read as RFC 3339 has it, with some latitude: months, days and times of day may have
one digit, white space may stand before numbers and separators, a year with a sign may have any
number of digits, the date ends at `T`, `t` or a space, digits of the fraction beyond the ninth are
dropped, and the zone is `Z`, `UTC` or an offset of hours and minutes. Each step of reading answers
with what it read and the characters after it.
-/

namespace Reconciler.Timestamp

open Reconciler.Text

/-- Reads a character that has to be there, after white space. -/
def readSeparator (separator : Char) (characters : List Char) : Option (List Char) :=
  match trimStart characters with
  | character :: rest => if character = separator then some rest else none
  | [] => none

/-- Reads a number of one digit up to a limit of digits, after white space. -/
def readNumber (limit : Nat) (characters : List Char) : Option (Nat × List Char) :=
  let (digits, rest) := splitDigits limit (trimStart characters)
  if digits.isEmpty then none else some (decimalNumber digits, rest)

/-- Reads a year: four digits at most, or a sign and any number of digits. -/
def readYear (characters : List Char) : Option (Int × List Char) :=
  match trimStart characters with
  | '-' :: rest =>
    let (digits, after) := splitDigits rest.length rest
    if digits.isEmpty then none else some (-(decimalNumber digits : Int), after)
  | '+' :: rest =>
    let (digits, after) := splitDigits rest.length rest
    if digits.isEmpty then none else some ((decimalNumber digits : Int), after)
  | rest => (readNumber 4 rest).map fun (year, after) => ((year : Int), after)

/-- Reads the fraction of a second, if there is one, as nanoseconds. -/
def readFraction : List Char → Option (Nat × List Char)
  | '.' :: rest =>
    let (digits, after) := splitDigits 9 rest
    if digits.isEmpty then none
    else
      let scale := Nat.pow 10 (9 - digits.length)
      some (decimalNumber digits * scale, after.dropWhile isDecimalDigit)
  | characters => some (0, characters)

/-- Reads the hours and minutes of an offset as seconds. -/
def readOffsetSize (characters : List Char) : Option (Nat × List Char) := do
  let hours := characters.take 2
  guard (hours.length = 2 ∧ hours.all isDecimalDigit)
  let rest := (characters.drop 2).dropWhile fun character => character = ':' || isBlankChar character
  let minutes := rest.take 2
  guard (minutes.length = 2 ∧ minutes.all isDecimalDigit ∧ decimalNumber minutes < 60)
  let size := decimalNumber hours * 3600 + decimalNumber minutes * 60
  guard (size < 86400)
  return (size, rest.drop 2)

/-- Reads a zone as the seconds by which its clocks are ahead. -/
def readZone (characters : List Char) : Option (Int × List Char) :=
  match trimStart characters with
  | 'Z' :: rest => some (0, rest)
  | 'z' :: rest => some (0, rest)
  | '+' :: rest => (readOffsetSize rest).map fun (size, after) => ((size : Int), after)
  | '-' :: rest => (readOffsetSize rest).map fun (size, after) => (-(size : Int), after)
  | '−' :: rest => (readOffsetSize rest).map fun (size, after) => (-(size : Int), after)
  | first :: second :: third :: rest =>
    if [first, second, third].map Char.toUpper = ['U', 'T', 'C'] then some (0, rest) else none
  | _ => none

/-- Reads a date of the calendar. -/
def readDate (characters : List Char) : Option (Date × List Char) := do
  let (year, characters) ← readYear characters
  let characters ← readSeparator '-' characters
  let (month, characters) ← readNumber 2 characters
  let characters ← readSeparator '-' characters
  let (day, characters) ← readNumber 2 characters
  let date : Date := ⟨year, month, day⟩
  guard (date.isValid ∧ earliestYear ≤ year ∧ year ≤ latestYear)
  return (date, characters)

/-- Reads a time of day, as seconds and nanoseconds; second 60 is a leap second. -/
def readTimeOfDay (characters : List Char) : Option ((Nat × Nat) × List Char) := do
  let (hour, characters) ← readNumber 2 characters
  let characters ← readSeparator ':' characters
  let (minute, characters) ← readNumber 2 characters
  let characters ← readSeparator ':' characters
  let (second, characters) ← readNumber 2 characters
  let (nanos, characters) ← readFraction characters
  guard (hour < 24 ∧ minute < 60 ∧ second ≤ 60)
  let time := hour * 3600 + minute * 60
  if second = 60 then return ((time + 59, nanosPerSecond + nanos), characters)
  else return ((time + second, nanos), characters)

/-- The point in time that a text names. -/
def read? (text : String) : Option Timestamp := do
  let (date, characters) ← readDate text.toList
  let first ← characters.head?
  guard (first = 'T' ∨ first = 't' ∨ first = ' ')
  let ((secondOfDay, nanos), characters) ← readTimeOfDay characters.tail
  let (offset, characters) ← readZone characters
  guard (trimStart characters).isEmpty
  let seconds := date.dayNumber * secondsPerDay + secondOfDay - offset
  guard (earliestSecond ≤ seconds ∧ seconds ≤ latestSecond)
  return ⟨seconds, nanos⟩

end Reconciler.Timestamp
