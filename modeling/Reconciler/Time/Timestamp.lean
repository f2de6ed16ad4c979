import Reconciler.Time.Calendar

/-!
# Points in time

A `Timestamp` is a point of Coordinated Universal Time with nanoseconds. A leap second belongs to
the second before it: its nanoseconds run from one billion up.
-/

namespace Reconciler

/-- A point in time: whole seconds since 1970-01-01T00:00:00Z, and nanoseconds. -/
structure Timestamp where
  seconds : Int
  nanos : Nat
deriving DecidableEq, Inhabited, Repr

namespace Timestamp

/-- The number of nanoseconds in a second. -/
def nanosPerSecond : Nat :=
  1000000000

/-- The number of seconds in a day without leap seconds. -/
def secondsPerDay : Int :=
  86400

/-- The first year that timestamps reach back to. -/
def earliestYear : Int :=
  -262143

/-- The last year that timestamps reach. -/
def latestYear : Int :=
  262142

/-- The first second of the earliest year. -/
def earliestSecond : Int :=
  Date.dayNumber ⟨earliestYear, 1, 1⟩ * secondsPerDay

/-- The last second of the latest year. -/
def latestSecond : Int :=
  Date.dayNumber ⟨latestYear, 12, 31⟩ * secondsPerDay + (secondsPerDay - 1)

/-- The last point in time that can be written. -/
def latest : Timestamp :=
  ⟨latestSecond, nanosPerSecond - 1⟩

instance : LT Timestamp where
  lt first second :=
    first.seconds < second.seconds ∨ first.seconds = second.seconds ∧ first.nanos < second.nanos

instance : LE Timestamp where
  le first second :=
    first.seconds < second.seconds ∨ first.seconds = second.seconds ∧ first.nanos ≤ second.nanos

instance (first second : Timestamp) : Decidable (first < second) :=
  inferInstanceAs (Decidable (_ ∨ _))

instance (first second : Timestamp) : Decidable (first ≤ second) :=
  inferInstanceAs (Decidable (_ ∨ _))

/-- The earlier of two points in time. -/
def earlier (first second : Timestamp) : Timestamp :=
  if second < first then second else first

/-- The later of two points in time. -/
def later (first second : Timestamp) : Timestamp :=
  if first < second then second else first

/-- Whether the point lies inside a leap second. -/
def inLeapSecond (time : Timestamp) : Bool :=
  nanosPerSecond ≤ time.nanos

/--
A point some seconds later, for a positive number of seconds; it leaves a leap second, and stops at
the last point that can be written.
-/
def addSeconds (time : Timestamp) (seconds : Nat) : Timestamp :=
  if seconds = 0 then time
  else
    let shifted : Timestamp :=
      ⟨time.seconds + seconds,
        if time.inLeapSecond then time.nanos - nanosPerSecond else time.nanos⟩
    if latestSecond < shifted.seconds then latest else shifted

/-- A point some milliseconds later. -/
def addMillis (time : Timestamp) (millis : Nat) : Timestamp :=
  let nanos := time.nanos + millis % 1000 * 1000000
  ⟨time.seconds + (millis / 1000 : Nat) + (nanos / nanosPerSecond : Nat), nanos % nanosPerSecond⟩

/-- The second of its day that a point lies in. -/
def secondOfDay (time : Timestamp) : Int :=
  time.seconds % secondsPerDay

/--
The nanoseconds from one point to another. A leap second counts only where it lies between the two
times of day.
-/
def nanosSince (time start : Timestamp) : Int :=
  let leap : Int :=
    if start.secondOfDay < time.secondOfDay then if start.inLeapSecond then 1 else 0
    else if time.secondOfDay < start.secondOfDay then if time.inLeapSecond then -1 else 0
    else 0
  (time.seconds - start.seconds + leap) * nanosPerSecond + ((time.nanos : Int) - start.nanos)

end Timestamp

/-- Both clocks read at one moment: milliseconds of the run, and the time of day. -/
structure Moment where
  elapsed : Nat
  wall : Timestamp
deriving DecidableEq, Inhabited, Repr

end Reconciler
