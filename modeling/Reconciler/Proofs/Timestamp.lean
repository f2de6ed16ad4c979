import Mathlib.Order.Defs.LinearOrder
import Reconciler.Time.Timestamp

/-!
# The order of points in time

Points in time are ordered by their seconds and then by their nanoseconds. A point some seconds
later is later, with one exception: the leap second at the end of the calendar lies after the last
point that a sum of a point and some seconds can reach.
-/

namespace Reconciler.Timestamp

theorem le_iff {first second : Timestamp} :
    first ≤ second ↔ first.seconds < second.seconds ∨
      first.seconds = second.seconds ∧ first.nanos ≤ second.nanos :=
  Iff.rfl

theorem lt_iff {first second : Timestamp} :
    first < second ↔ first.seconds < second.seconds ∨
      first.seconds = second.seconds ∧ first.nanos < second.nanos :=
  Iff.rfl

instance : LinearOrder Timestamp where
  le_refl time := by
    rw [le_iff]
    omega
  le_trans first second third := by
    simp only [le_iff]
    omega
  le_antisymm first second := by
    rcases first with ⟨firstSeconds, firstNanos⟩
    rcases second with ⟨secondSeconds, secondNanos⟩
    simp only [le_iff, mk.injEq]
    omega
  le_total first second := by
    simp only [le_iff]
    omega
  lt_iff_le_not_ge first second := by
    simp only [le_iff, lt_iff]
    omega
  toDecidableLE := inferInstance

theorem earlier_le (first second : Timestamp) :
    first.earlier second ≤ first ∧ first.earlier second ≤ second := by
  rw [earlier]
  split
  · rename_i before
    exact ⟨le_of_lt before, le_refl second⟩
  · rename_i notBefore
    exact ⟨le_refl first, le_of_not_gt notBefore⟩

theorem le_later (first second : Timestamp) :
    first ≤ first.later second ∧ second ≤ first.later second := by
  rw [later]
  split
  · rename_i before
    exact ⟨le_of_lt before, le_refl second⟩
  · rename_i notBefore
    exact ⟨le_refl first, le_of_not_gt notBefore⟩

theorem earlier_self (time : Timestamp) : time.earlier time = time :=
  ite_self time

/-- Adding seconds leads to a later point unless the point is past all sums. -/
theorem le_addSeconds_iff {time : Timestamp} {seconds : Nat} (positive : 0 < seconds) :
    time ≤ time.addSeconds seconds ↔ time ≤ latest := by
  rw [addSeconds, if_neg (Nat.ne_of_gt positive)]
  simp only
  split
  · exact Iff.rfl
  · rename_i reachable
    simp only [le_iff, latest] at reachable ⊢
    omega

/-- Outside leap seconds, a point is in reach of a sum if it is no more than the seconds away. -/
theorem le_addSeconds_iff_nanosSince {first second : Timestamp} {seconds : Nat}
    (positive : 0 < seconds) (firstOrdinary : first.inLeapSecond = false)
    (secondOrdinary : second.inLeapSecond = false) (reachable : first ≤ latest) :
    first ≤ second.addSeconds seconds ↔
      first.nanosSince second ≤ (seconds : Int) * nanosPerSecond := by
  have noLeap : first.nanosSince second =
      (first.seconds - second.seconds) * nanosPerSecond + ((first.nanos : Int) - second.nanos) := by
    simp [nanosSince, firstOrdinary, secondOrdinary]
  have firstBound : first.nanos < nanosPerSecond := by
    rwa [inLeapSecond, decide_eq_false_iff_not, Nat.not_le] at firstOrdinary
  have secondBound : second.nanos < nanosPerSecond := by
    rwa [inLeapSecond, decide_eq_false_iff_not, Nat.not_le] at secondOrdinary
  have scale : (nanosPerSecond : Int) = 1000000000 := rfl
  rw [addSeconds, if_neg (Nat.ne_of_gt positive), noLeap, secondOrdinary,
    if_neg Bool.false_ne_true, scale]
  simp only
  split
  · rename_i saturated
    refine iff_of_true reachable ?_
    simp only [le_iff, latest] at reachable
    omega
  · simp only [le_iff]
    omega

/--
The point some seconds later on a calendar without an end, for a positive number of seconds; it
leaves a leap second.
-/
def secondsLater (time : Timestamp) (seconds : Nat) : Timestamp :=
  ⟨time.seconds + seconds, if time.inLeapSecond then time.nanos - nanosPerSecond else time.nanos⟩

theorem le_secondsLater (time : Timestamp) {seconds : Nat} (positive : 0 < seconds) :
    time ≤ time.secondsLater seconds := by
  simp only [le_iff, secondsLater]
  omega

/-- What no sum is short of is in reach of a sum if it is on a calendar without an end. -/
theorem le_addSeconds_of_le_secondsLater {first second : Timestamp} {seconds : Nat}
    (positive : 0 < seconds) (inReach : first ≤ second.secondsLater seconds)
    (reachable : first ≤ latest) : first ≤ second.addSeconds seconds := by
  rw [addSeconds, if_neg (Nat.ne_of_gt positive)]
  simp only
  split
  · exact reachable
  · exact inReach

/-- A point past all sums lies a long time after 1970. -/
theorem nanosSince_pos_of_past {time : Timestamp} (past : ¬time ≤ latest) :
    0 < time.nanosSince ⟨0, 0⟩ := by
  have atEnd : latestSecond ≤ time.seconds := by
    simp only [le_iff, latest] at past
    omega
  have farAhead : 1 < latestSecond := by decide
  have enough : ∀ leap : Int, -1 ≤ leap →
      0 < (time.seconds - 0 + leap) * nanosPerSecond + ((time.nanos : Int) - 0) := by
    intro leap bound
    rw [show (nanosPerSecond : Int) = 1000000000 from rfl]
    omega
  apply enough
  repeat' split
  all_goals decide

/-- A point past all sums of a point and some seconds: the middle of the last leap second. -/
def lastLeapSecond : Timestamp :=
  ⟨latestSecond, 1500000000⟩

theorem not_lastLeapSecond_le_latest : ¬lastLeapSecond ≤ latest := by
  simp [le_iff, lastLeapSecond, latest, nanosPerSecond]

end Reconciler.Timestamp
