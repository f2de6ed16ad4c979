import Reconciler.Observed.Fold

/-!
# Projection

A `Projector` keeps the observed state of every lattice, together with a log of its latest events.
When a log outgrows its limit, its older half is folded into a base, and hosts that stopped too long
ago to matter to the rest are forgotten.
-/

namespace Reconciler

/-- A change that may call for reconciliation. -/
structure StateChange where
  lattice : LatticeId
  host : HostId
  scope : ChangeScope
deriving DecidableEq, Inhabited, Repr

/-- The events of one lattice and the state that they lead to. -/
structure LatticeLog where
  /-- The state that the events before the tail lead to. -/
  base : ObservedState
  tail : List LatticeEvent
  current : ObservedState
deriving DecidableEq, Inhabited

namespace LatticeLog

/-- The log of a lattice without events. -/
def empty (lattice : LatticeId) : LatticeLog :=
  ⟨.empty lattice, [], .empty lattice⟩

/-- The state that base and tail lead to. -/
def rebuild (log : LatticeLog) : ObservedState :=
  log.base.afterAll log.tail

/-- The time of the earliest of some events. -/
def earliest? : List LatticeEvent → Option Timestamp
  | [] => none
  | event :: events =>
    some (events.foldl (fun time event => time.earlier event.occurredAt) event.occurredAt)

/-- Folds the older half of a log into its base, if the log has more events than a limit. -/
def compact (log : LatticeLog) (limit : Nat) : LatticeLog :=
  if log.tail.length ≤ limit then log
  else
    let folded := log.tail.length - limit / 2
    let base := log.base.afterAll (log.tail.take folded)
    let tail := log.tail.drop folded
    match earliest? tail with
    | none => { log with base := base, tail := tail }
    | some time =>
      let current :=
        if base.prunedCount time = 0 then log.current else log.current.pruneRetired time
      ⟨base.pruneRetired time, tail, current⟩

/-- Appends an event. -/
def append (log : LatticeLog) (event : LatticeEvent) (limit : Nat) : LatticeLog × Applied :=
  let (current, applied) := log.current.apply event
  (({ log with tail := log.tail ++ [event], current := current } : LatticeLog).compact limit,
    applied)

end LatticeLog

/-- The observed states of all lattices. -/
structure Projector where
  logs : SortedMap LatticeId LatticeLog
  limit : Nat
deriving DecidableEq, Inhabited

namespace Projector

/-- The number of events that a log keeps unless told otherwise. -/
def defaultLimit : Nat :=
  10000

/-- A projector without events, with logs of at least two events. -/
def withLimit (limit : Nat) : Projector :=
  ⟨∅, max limit 2⟩

/-- A projector without events. -/
def new : Projector :=
  withLimit defaultLimit

/-- The log of a lattice. -/
def log (projector : Projector) (lattice : LatticeId) : LatticeLog :=
  (projector.logs.find? lattice).getD (.empty lattice)

/-- Takes an event into account. -/
def apply (projector : Projector) (event : LatticeEvent) : Projector × Applied :=
  let (log, applied) := (projector.log event.lattice).append event projector.limit
  ({ projector with logs := projector.logs.insert event.lattice log }, applied)

/-- The state of a lattice; nothing is known of a lattice from which no event has come. -/
def snapshot (projector : Projector) (lattice : LatticeId) : ObservedState :=
  (projector.log lattice).current

/-- The state of a lattice, computed anew from its log. -/
def rebuild (projector : Projector) (lattice : LatticeId) : ObservedState :=
  (projector.log lattice).rebuild

/-- The lattices from which events have come. -/
def lattices (projector : Projector) : List LatticeId :=
  projector.logs.keys

/-- The number of events that the log of a lattice keeps. -/
def logLength (projector : Projector) (lattice : LatticeId) : Nat :=
  (projector.log lattice).tail.length

/-- The change that subscribers hear of when an event has done something. -/
def change? (event : LatticeEvent) : Applied → Option StateChange
  | .changed scope => some ⟨event.lattice, event.host, scope⟩
  | _ => none

end Projector

end Reconciler
