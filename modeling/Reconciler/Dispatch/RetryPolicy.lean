/-!
# Retry policy

How often commands are sent again, and how long things are waited for. All times are in
milliseconds.
-/

namespace Reconciler

/-- Limits on the life of commands. -/
structure RetryPolicy where
  /-- The number of times that a command is sent at most, the first time included. -/
  maxAttempts : UInt32
  baseBackoff : Nat
  maxBackoff : Nat
  /-- How long an acknowledgement is waited for. -/
  ackTimeout : Nat
  /-- How long a finished command is remembered. -/
  entryTtl : Nat
deriving DecidableEq, Inhabited, Repr

namespace RetryPolicy

/-- The limits that hold unless told otherwise. -/
def standard : RetryPolicy :=
  ⟨5, 500, 30000, 10000, 60000⟩

/-- The number of doublings after which the wait grows no further. -/
def maximumDoublings : Nat :=
  31

/-- The wait after a failed attempt; it doubles from one attempt to the next, up to a maximum. -/
def backoff (policy : RetryPolicy) (attempt : UInt32) : Nat :=
  min (policy.baseBackoff * Nat.pow 2 (min (attempt.toNat - 1) maximumDoublings)) policy.maxBackoff

/-- Whether a command may not be sent again after a number of attempts. -/
def isExhausted (policy : RetryPolicy) (attempts : UInt32) : Bool :=
  policy.maxAttempts ≤ attempts

end RetryPolicy

end Reconciler
