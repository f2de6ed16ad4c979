import Reconciler.Observed.State

/-!
# Folding events into observed state

`ObservedState.apply` takes one event into account. An event is skipped if it repeats or precedes
what is known of its host, or if its host has stopped and has not started again; a start with a
later boot epoch than the last one known is a restart, and is never skipped.
-/

namespace Reconciler

/-- Which applications a change may concern. -/
inductive ChangeScope where
  /-- Every application of the lattice. -/
  | lattice
  | app (name : AppName)
deriving DecidableEq, Inhabited, Repr

/-- What an event did. -/
inductive Applied where
  /-- It was a repeat, came too late, or belongs to another lattice. -/
  | skipped
  /-- It was taken, and nothing that placement depends on has changed. -/
  | recorded
  /-- Instances, hosts, labels or links have changed. -/
  | changed (scope : ChangeScope)
deriving DecidableEq, Inhabited, Repr

namespace ChangeScope

/-- The scope of a change to something with annotations. -/
def ofAnnotations (annotations : Labels) : ChangeScope :=
  match annotations.find? Labels.managedBy with
  | some name => app ⟨name⟩
  | none => lattice

/-- The scope of a change to a link. -/
def ofLink (link : ActiveLink) : ChangeScope :=
  match link.owner with
  | some owner => app owner
  | none => lattice

end ChangeScope

namespace LatticeEvent

/-- The boot epoch that an event announces. -/
def bootEpoch (event : LatticeEvent) : Option UInt64 :=
  match event.kind with
  | .hostStarted _ epoch => epoch
  | _ => none

/-- Whether an event says that its host has started. -/
def isHostStarted (event : LatticeEvent) : Bool :=
  match event.kind with
  | .hostStarted .. => true
  | _ => false

end LatticeEvent

/-- The host after one more of its events. -/
def HostState.advance (host : HostState) (event : LatticeEvent) : HostState :=
  { host with
    highWater := max host.highWater event.sequence
    lastSeen := host.lastSeen.later event.occurredAt }

/-- A host of which only one event is known. -/
def HostState.appearing (event : LatticeEvent) : HostState :=
  HostState.advance ⟨∅, none, ∅, 0, event.occurredAt⟩ event

/-- The record of an instance that an event says has started. -/
def InstanceRecord.started (event : LatticeEvent) (component : ComponentId)
    (componentKind : ComponentKind) (imageRef : String) (annotations : Labels) : InstanceRecord where
  component := component
  componentKind := componentKind
  imageRef := imageRef
  annotations := annotations
  startedAt := event.occurredAt
  startedSequence := event.sequence
  status :=
    match componentKind with
    | .component => .running
    | .provider => .pending

namespace ObservedState

/-- The boot epoch last known of a host, live or stopped; nothing for an unknown host. -/
def knownEpoch? (state : ObservedState) (id : HostId) : Option (Option UInt64) :=
  match state.host? id with
  | some host => some host.bootEpoch
  | none => (state.retired.find? id).map Tombstone.bootEpoch

/-- Whether an event is a start with a later boot epoch than the last one known of its host. -/
def isRestart (state : ObservedState) (event : LatticeEvent) : Bool :=
  match event.bootEpoch, state.knownEpoch? event.host with
  | some epoch, some (some known) => known < epoch
  | some _, some none => true
  | _, _ => false

/-- Whether an event repeats or precedes what is known of its host. -/
def isStale (state : ObservedState) (event : LatticeEvent) : Bool :=
  if state.isRestart event then false
  else
    match state.host? event.host with
    | some host => event.sequence ≤ host.highWater
    | none =>
      match state.retired.find? event.host with
      | some tombstone =>
        tombstone.blocks event &&
          (!event.isHostStarted || event.sequence ≤ tombstone.highWater)
      | none => false

/-- The host of an event, after the event. -/
def touched (state : ObservedState) (event : LatticeEvent) : HostState :=
  match state.host? event.host with
  | some host => host.advance event
  | none => HostState.appearing event

/-- The state with the host of an event live, as given. -/
def withHost (state : ObservedState) (event : LatticeEvent) (host : HostState) : ObservedState :=
  { state with
    hosts := state.hosts.insert event.host host
    retired := state.retired.erase event.host }

/-- The host of an event has these labels. -/
def applyLabels (state : ObservedState) (event : LatticeEvent) (host : HostState)
    (labels : Labels) : ObservedState × Applied :=
  let isNew := !state.hosts.contains event.host
  (state.withHost event { host with labels := labels },
    if isNew || host.labels != labels then .changed .lattice else .recorded)

/-- The host of an event has started. -/
def applyHostStarted (state : ObservedState) (event : LatticeEvent) (labels : Labels)
    (epoch : Option UInt64) : ObservedState × Applied :=
  let state :=
    if state.isRestart event then { state with hosts := state.hosts.erase event.host } else state
  let host := state.touched event
  state.applyLabels event { host with bootEpoch := epoch.or host.bootEpoch } labels

/-- The host of an event has stopped. -/
def applyHostStopped (state : ObservedState) (event : LatticeEvent) : ObservedState × Applied :=
  match state.host? event.host with
  | some host =>
    let tombstone : Tombstone :=
      ⟨max host.highWater event.sequence, host.bootEpoch, event.occurredAt⟩
    ({ state with
        hosts := state.hosts.erase event.host
        retired := state.retired.insert event.host tombstone },
      .changed .lattice)
  | none => (state, .recorded)

/-- An instance has started on the host of an event. -/
def applyInstanceStarted (state : ObservedState) (event : LatticeEvent) (id : InstanceId)
    (record : InstanceRecord) : ObservedState × Applied :=
  let host := state.touched event
  if host.instances.contains id then (state.withHost event host, .recorded)
  else
    (state.withHost event { host with instances := host.instances.insert id record },
      .changed (.ofAnnotations record.annotations))

/-- An instance has stopped on the host of an event. -/
def applyInstanceStopped (state : ObservedState) (event : LatticeEvent) (id : InstanceId) :
    ObservedState × Applied :=
  match state.host? event.host with
  | some host =>
    let host := host.advance event
    match host.instances.find? id with
    | some record =>
      let host := { host with instances := host.instances.erase id }
      ({ state with hosts := state.hosts.insert event.host host },
        .changed (.ofAnnotations record.annotations))
    | none => ({ state with hosts := state.hosts.insert event.host host }, .recorded)
  | none => (state, .recorded)

/-- The instances of a provider on the host of an event are healthy, or are not. -/
def applyProviderHealth (state : ObservedState) (event : LatticeEvent) (component : ComponentId)
    (healthy : Bool) : ObservedState × Applied :=
  let host := state.touched event
  let status : InstanceStatus := if healthy then .running else .failed
  let instances := host.instances.mapValues fun _ record =>
    if record.component == component && record.componentKind == .provider then
      { record with status := status }
    else record
  (state.withHost event { host with instances := instances }, .recorded)

/-- A link has been put. -/
def applyLinkSet (state : ObservedState) (event : LatticeEvent) (link : ActiveLink) :
    ObservedState × Applied :=
  let state := state.withHost event (state.touched event)
  if state.links.find? link.key = some link then (state, .recorded)
  else ({ state with links := state.links.insert link.key link }, .changed (.ofLink link))

/-- A link has been deleted. -/
def applyLinkDeleted (state : ObservedState) (event : LatticeEvent) (key : LinkKey) :
    ObservedState × Applied :=
  let state := state.withHost event (state.touched event)
  match state.links.find? key with
  | some link => ({ state with links := state.links.erase key }, .changed (.ofLink link))
  | none => (state, .recorded)

/-- Takes an event into account that is not stale. -/
def accept (state : ObservedState) (event : LatticeEvent) : ObservedState × Applied :=
  match event.kind with
  | .hostStarted labels epoch => state.applyHostStarted event labels epoch
  | .hostHeartbeat labels => state.applyLabels event (state.touched event) labels
  | .hostStopped => state.applyHostStopped event
  | .instanceStarted component componentKind imageRef id annotations =>
    state.applyInstanceStarted event id
      (.started event component componentKind imageRef annotations)
  | .instanceStopped _ id => state.applyInstanceStopped event id
  | .providerHealth component healthy => state.applyProviderHealth event component healthy
  | .linkSet link => state.applyLinkSet event link
  | .linkDeleted key => state.applyLinkDeleted event key

/-- Takes an event into account. -/
def apply (state : ObservedState) (event : LatticeEvent) : ObservedState × Applied :=
  if event.lattice ≠ state.lattice ∨ state.isStale event then (state, .skipped)
  else state.accept event

/-- The state after an event. -/
def after (state : ObservedState) (event : LatticeEvent) : ObservedState :=
  (state.apply event).1

/-- The state after a list of events. -/
def afterAll (state : ObservedState) (events : List LatticeEvent) : ObservedState :=
  events.foldl after state

/-- The state of a lattice that a list of events leads to. -/
def replay (lattice : LatticeId) (events : List LatticeEvent) : ObservedState :=
  (empty lattice).afterAll events

end ObservedState

end Reconciler
