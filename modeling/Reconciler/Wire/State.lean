import Reconciler.Observed.State
import Reconciler.Wire.Event

/-!
# JSON forms of observed state

Observed state is written and never read back: it follows from events. Links have no textual key, so
that the table of links has a form only while it is empty.
-/

namespace Reconciler

open JsonForm

/-- The form of a map whose keys are names: an object. -/
def SortedMap.nameForm {role : Role} {ν : Type} (form : ν → Json)
    (map : SortedMap (Identifier role) ν) : Json :=
  .object (map.entries.map fun (name, value) => (name.text, form value))

/-- The form of an instance. -/
def InstanceRecord.form (record : InstanceRecord) : Json :=
  .object [("component", write record.component), ("component_kind", write record.componentKind),
    ("image_ref", write record.imageRef), ("annotations", write record.annotations),
    ("started_at", write record.startedAt), ("started_sequence", write record.startedSequence),
    ("status", write record.status)]

/-- The form of a live host. -/
def HostState.form (host : HostState) : Json :=
  .object [("labels", write host.labels), ("boot_epoch", write host.bootEpoch),
    ("instances", host.instances.nameForm InstanceRecord.form),
    ("high_water", write host.highWater), ("last_seen", write host.lastSeen)]

/-- The form of what is remembered of a stopped host. -/
def Tombstone.form (tombstone : Tombstone) : Json :=
  .object [("high_water", write tombstone.highWater), ("boot_epoch", write tombstone.bootEpoch),
    ("retired_at", write tombstone.retiredAt)]

/-- What to say where a map has keys that cannot be names of members. -/
def ObservedState.keyProblem : String :=
  "key must be a string"

/-- The form of the state of a lattice, if it has one. -/
def ObservedState.form? (state : ObservedState) : Option Json :=
  if state.links.entries.isEmpty then
    some <| .object [("lattice", write state.lattice),
      ("hosts", state.hosts.nameForm HostState.form),
      ("retired", state.retired.nameForm Tombstone.form), ("links", .object [])]
  else none

end Reconciler
