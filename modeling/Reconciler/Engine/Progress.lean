import Reconciler.Time.Timestamp

/-!
# Progress of actors

What an actor shows of its work.
-/

namespace Reconciler

/-- What an actor is doing. -/
inductive ActorPhase where
  | idle
  | evaluating
  | dispatching
deriving DecidableEq, Inhabited, Repr

/-- How far an actor has come. -/
structure ActorStatus where
  phase : ActorPhase
  /-- The number of completed cycles. -/
  cycles : UInt64
  /-- The number of actions that the last completed cycle found to be missing. -/
  lastActions : UInt64
  lastReconciledAt : Option Timestamp
  /-- Whether a teardown is complete. -/
  dormant : Bool
deriving DecidableEq, Inhabited, Repr

namespace ActorStatus

/-- The status of an actor that has not done anything yet. -/
def initial : ActorStatus :=
  ⟨.idle, 0, 0, none, false⟩

/-- Whether an actor has looked and found nothing missing. -/
def isSettled (status : ActorStatus) : Bool :=
  0 < status.cycles && status.phase == .idle && status.lastActions == 0

/-- The status after a cycle that found a number of actions to be missing. -/
def afterCycle (status : ActorStatus) (now : Timestamp) (actions : Nat) : ActorStatus :=
  { status with
    phase := .idle
    cycles := status.cycles + 1
    lastActions := actions.toUInt64
    lastReconciledAt := some now }

end ActorStatus

end Reconciler
