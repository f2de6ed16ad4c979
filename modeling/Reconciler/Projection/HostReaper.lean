import Reconciler.Projection.Projector

/-!
# Expiry of silent hosts

A host that has not been heard of for several heartbeat intervals is taken for stopped. The reaper
says so with an event of its own, so that the log tells it too. That event takes the number next
after those of the host; where none is left, the reaper breaks off and gives no answer.
-/

namespace Reconciler

/-- The highest number that an event can have. -/
def LatticeEvent.lastSequence : UInt64 :=
  18446744073709551615

/-- Takes hosts for stopped that have been silent too long. -/
structure HostReaper where
  /-- The time of silence that is still accepted, in nanoseconds. -/
  maximumAge : Nat
deriving DecidableEq, Inhabited, Repr

namespace HostReaper

/-- Accepts a number of intervals of silence, at least one; an interval is in nanoseconds. -/
def new (interval intervals : Nat) : HostReaper :=
  ⟨interval * max intervals 1⟩

/-- Whether a host has been silent too long at a time. -/
def isExpired (reaper : HostReaper) (now : Timestamp) (host : HostState) : Bool :=
  reaper.maximumAge < now.nanosSince host.lastSeen

/-- The hosts that have been silent too long at a time. -/
def expired (reaper : HostReaper) (state : ObservedState) (now : Timestamp) : List HostId :=
  (state.hosts.filter fun _ host => reaper.isExpired now host).keys

/--
The event that says that a host has stopped, next after the events of the host, if a number is left
for it.
-/
def stopEvent? (lattice : LatticeId) (id : HostId) (host : HostState) (now : Timestamp) :
    Option LatticeEvent :=
  if host.highWater = LatticeEvent.lastSequence then none
  else some ⟨lattice, id, host.highWater + 1, now, .hostStopped⟩

/--
Takes hosts of one lattice for stopped, and names those that this has changed. There is no answer if
a host has no number left; what has been done until then stands.
-/
def reapHosts (now : Timestamp) (snapshot : ObservedState) (projector : Projector) :
    List HostId → Projector × Option (List HostId)
  | [] => (projector, some [])
  | id :: ids =>
    match snapshot.host? id with
    | none => reapHosts now snapshot projector ids
    | some host =>
      match stopEvent? snapshot.lattice id host now with
      | none => (projector, none)
      | some stop =>
        let (projector, applied) := projector.apply stop
        let (projector, reaped) := reapHosts now snapshot projector ids
        match applied with
        | .changed _ => (projector, reaped.map (id :: ·))
        | _ => (projector, reaped)

/-- Takes silent hosts of some lattices for stopped, and names those that this has changed. -/
def reapLattices (reaper : HostReaper) (now : Timestamp) (projector : Projector) :
    List LatticeId → Projector × Option (List (LatticeId × HostId))
  | [] => (projector, some [])
  | lattice :: lattices =>
    let snapshot := projector.snapshot lattice
    match reapHosts now snapshot projector (reaper.expired snapshot now) with
    | (projector, none) => (projector, none)
    | (projector, some hosts) =>
      let (projector, reaped) := reaper.reapLattices now projector lattices
      (projector, reaped.map (hosts.map (lattice, ·) ++ ·))

/-- Takes silent hosts of all lattices for stopped, and names those that this has changed. -/
def reap (reaper : HostReaper) (now : Timestamp) (projector : Projector) :
    Projector × Option (List (LatticeId × HostId)) :=
  reaper.reapLattices now projector projector.lattices

end HostReaper

end Reconciler
