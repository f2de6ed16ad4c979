import Reconciler.Observed.Event

/-!
# Observed state

What the events of a lattice have told so far: which hosts are live and what runs on them, which
hosts have stopped, and which links stand.
-/

namespace Reconciler

/-- A running instance. -/
structure InstanceRecord where
  component : ComponentId
  componentKind : ComponentKind
  imageRef : String
  annotations : Labels
  startedAt : Timestamp
  startedSequence : UInt64
  status : InstanceStatus
deriving DecidableEq, Inhabited

/-- A live host and what runs on it. -/
structure HostState where
  labels : Labels
  /-- The boot epoch of the latest start that announced one. -/
  bootEpoch : Option UInt64
  instances : SortedMap InstanceId InstanceRecord
  /-- The highest sequence number among the events of the host. -/
  highWater : UInt64
  lastSeen : Timestamp
deriving DecidableEq, Inhabited

/-- What is remembered of a host that has stopped. -/
structure Tombstone where
  highWater : UInt64
  bootEpoch : Option UInt64
  retiredAt : Timestamp
deriving DecidableEq, Inhabited

/-- A view of one lattice. -/
structure ObservedState where
  lattice : LatticeId
  hosts : SortedMap HostId HostState
  retired : SortedMap HostId Tombstone
  links : SortedMap LinkKey ActiveLink
deriving DecidableEq, Inhabited

namespace InstanceRecord

/-- The application that the instance was started for, if it was started for one. -/
def managedBy (record : InstanceRecord) : Option String :=
  record.annotations.find? Labels.managedBy

/-- Whether the instance was started for an application. -/
def isManagedBy (record : InstanceRecord) (app : AppName) : Bool :=
  record.managedBy == some app.text

end InstanceRecord

namespace Tombstone

/-- How long the events of a stopped host are held back, in seconds. -/
def retentionSeconds : Nat :=
  3600

/-- The end of the time in which events of the host are held back. -/
def expiresAt (tombstone : Tombstone) : Timestamp :=
  tombstone.retiredAt.addSeconds retentionSeconds

/-- Whether an event happened in the time in which events of its host are held back. -/
def blocks (tombstone : Tombstone) (event : LatticeEvent) : Bool :=
  event.occurredAt ≤ tombstone.expiresAt

end Tombstone

/-- An instance and where it runs. -/
structure PlacedInstance where
  host : HostId
  id : InstanceId
  record : InstanceRecord
deriving DecidableEq, Inhabited

namespace ObservedState

/-- The state of a lattice from which no event has come. -/
def empty (lattice : LatticeId) : ObservedState :=
  ⟨lattice, ∅, ∅, ∅⟩

/-- The live host with a name. -/
def host? (state : ObservedState) (id : HostId) : Option HostState :=
  state.hosts.find? id

/-- The hosts that are remembered as stopped. -/
def retiredHosts (state : ObservedState) : List HostId :=
  state.retired.keys

/-- The link with a key. -/
def link? (state : ObservedState) (key : LinkKey) : Option ActiveLink :=
  state.links.find? key

/-- The links put for an application, in key order. -/
def linksOwnedBy (state : ObservedState) (app : AppName) : List ActiveLink :=
  state.links.values.filter fun link => link.owner == some app

/-- All instances, by host and then by name. -/
def placedInstances (state : ObservedState) : List PlacedInstance :=
  state.hosts.entries.flatMap fun (host, hostState) =>
    hostState.instances.entries.map fun (id, record) => ⟨host, id, record⟩

/-- The instances started for an application, by host and then by name. -/
def managedInstances (state : ObservedState) (app : AppName) : List PlacedInstance :=
  state.placedInstances.filter fun placed => placed.record.isManagedBy app

/-- The number of instances of a component that were started for an application. -/
def instanceCount (state : ObservedState) (app : AppName) (component : ComponentId) : Nat :=
  ((state.managedInstances app).filter fun placed => placed.record.component == component).length

/-- Whether nothing that belongs to an application is left in the lattice. -/
def isClearOf (state : ObservedState) (app : AppName) : Bool :=
  (state.managedInstances app).isEmpty && (state.linksOwnedBy app).isEmpty

/-- Forgets the stopped hosts whose events are no longer held back at a time. -/
def pruneRetired (state : ObservedState) (before : Timestamp) : ObservedState :=
  { state with retired := state.retired.filter fun _ tombstone => before ≤ tombstone.expiresAt }

/-- The number of stopped hosts that `pruneRetired` forgets. -/
def prunedCount (state : ObservedState) (before : Timestamp) : Nat :=
  state.retired.size - (state.pruneRetired before).retired.size

end ObservedState

end Reconciler
