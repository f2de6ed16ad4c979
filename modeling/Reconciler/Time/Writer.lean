import Reconciler.Text.Digits
import Reconciler.Time.Timestamp

/-!
# Writing timestamps

A timestamp is written in Coordinated Universal Time with zero, three, six or nine digits of the
fraction, whichever are the fewest that lose nothing.
-/

namespace Reconciler.Timestamp

open Reconciler.Text

/-- Years outside of 0 to 9999 have a sign and at least four digits. -/
def writeYear (year : Int) : String :=
  if 0 ≤ year ∧ year ≤ 9999 then padded 4 year.toNat
  else (if year < 0 then "-" else "+") ++ padded 4 year.natAbs

/-- The point before the fraction and its digits, or nothing for a whole second. -/
def writeFraction (nanos : Nat) : String :=
  if nanos = 0 then ""
  else if nanos % 1000000 = 0 then "." ++ padded 3 (nanos / 1000000)
  else if nanos % 1000 = 0 then "." ++ padded 6 (nanos / 1000)
  else "." ++ padded 9 nanos

/-- The text of a point in time. -/
def write (time : Timestamp) : String :=
  let date := Date.ofDayNumber (time.seconds / secondsPerDay)
  let secondOfDay := time.secondOfDay.toNat
  let leap := time.inLeapSecond
  let second := secondOfDay % 60 + if leap then 1 else 0
  let nanos := if leap then time.nanos - nanosPerSecond else time.nanos
  writeYear date.year ++ "-" ++ padded 2 date.month ++ "-" ++ padded 2 date.day ++ "T" ++
    padded 2 (secondOfDay / 3600) ++ ":" ++ padded 2 (secondOfDay / 60 % 60) ++ ":" ++
    padded 2 second ++ writeFraction nanos ++ "Z"

end Reconciler.Timestamp
