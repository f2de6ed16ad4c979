import Reconciler.Identifier
import Reconciler.Uuid

/-!
# Control events

What an engine reports about its own work.
-/

namespace Reconciler

/-- The parts of an engine that report events. -/
inductive EventSource where
  | manifest
  | projector
  | reconciler
  | dispatcher
  | coordinator
deriving DecidableEq, Inhabited, Repr

/-- How grave an event is. -/
inductive EventSeverity where
  | debug
  | info
  | warning
  | error
  | critical
deriving DecidableEq, Inhabited, Repr

/-- The place of a severity in their order, the gravest last. -/
def EventSeverity.rank : EventSeverity → Nat
  | debug => 0
  | info => 1
  | warning => 2
  | error => 3
  | critical => 4

/-- Something that an engine reports. -/
inductive ControlEvent where
  | manifestSubmitted (app : AppName) (version : String)
  | deployRequested (app : AppName) (lattice : LatticeId) (version : String)
  | rolledBack (app : AppName) (version : String)
  | undeployRequested (app : AppName) (lattice : LatticeId) (force : Bool)
  | applicationDeleted (app : AppName)
  | reconcileCompleted (app : AppName) (lattice : LatticeId) (actions sent : UInt64)
  | commandRetried (key : IdempotencyKey) (attempt : UInt32) (reason : String)
  | commandFailed (key : IdempotencyKey) (attempts : UInt32) (reason : String)
  | hostExpired (lattice : LatticeId) (host : HostId)
  | partitionChanged (owned : UInt64)
  | engineUnhealthy (reason : String)
  | engineRecovered
deriving DecidableEq, Inhabited, Repr

namespace ControlEvent

/-- The severity of an event unless it is reported with another. -/
def severity : ControlEvent → EventSeverity
  | reconcileCompleted .. => .debug
  | commandRetried .. => .warning
  | hostExpired .. => .warning
  | commandFailed .. => .error
  | engineUnhealthy _ => .critical
  | _ => .info

/-- The part of the engine that an event comes from. -/
def source : ControlEvent → EventSource
  | manifestSubmitted .. => .manifest
  | rolledBack .. => .manifest
  | applicationDeleted _ => .manifest
  | deployRequested .. => .reconciler
  | undeployRequested .. => .reconciler
  | reconcileCompleted .. => .reconciler
  | commandRetried .. => .dispatcher
  | commandFailed .. => .dispatcher
  | hostExpired .. => .projector
  | partitionChanged _ => .coordinator
  | engineUnhealthy _ => .coordinator
  | engineRecovered => .coordinator

end ControlEvent

/-- An event as it is reported. -/
structure ControlEventEnvelope where
  id : Uuid
  timestamp : Timestamp
  source : EventSource
  severity : EventSeverity
  /-- The engine that reports the event. -/
  engine : String
  correlationId : Option String
  event : ControlEvent
deriving DecidableEq, Inhabited, Repr

end Reconciler
