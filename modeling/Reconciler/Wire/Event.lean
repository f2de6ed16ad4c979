import Reconciler.Observed.Event
import Reconciler.Wire.Manifest

/-!
# JSON forms of lifecycle events

The kind of an event is tagged with `type`.
-/

namespace Reconciler

open JsonForm

instance : JsonForm LinkKey where
  write key :=
    .object [("source", write key.source), ("name", write key.name),
      ("namespace", write key.nameSpace), ("package", write key.package)]
  read? reading json := do
    let fields ← json.fields? ["source", "name", "namespace", "package"]
    return {
      source := ← fields.required? reading "source"
      name := ← fields.required? reading "name"
      nameSpace := ← fields.required? reading "namespace"
      package := ← fields.required? reading "package" }

instance : JsonForm ActiveLink where
  write link :=
    .object [("key", write link.key), ("target", write link.target),
      ("interfaces", write link.interfaces), ("source_config", write link.sourceConfig),
      ("owner", write link.owner)]
  read? reading json := do
    let fields ← json.fields? ["key", "target", "interfaces", "source_config", "owner"]
    return {
      key := ← fields.required? reading "key"
      target := ← fields.required? reading "target"
      interfaces := ← fields.orElse? reading "interfaces" []
      sourceConfig := ← fields.orElse? reading "source_config" ∅
      owner := ← fields.orElse? reading "owner" none }

/-- The names of the states of instances. -/
def InstanceStatus.names : NameTable InstanceStatus where
  nameOf
    | .pending => "pending"
    | .running => "running"
    | .failed => "failed"
  values := [.pending, .running, .failed]
  aliases := []

instance : JsonForm InstanceStatus :=
  InstanceStatus.names.form

namespace LatticeEventKind

/-- The members that a kind of events has besides its tag. -/
def members : LatticeEventKind → List (String × Json)
  | hostStarted labels none => [("labels", write labels)]
  | hostStarted labels (some epoch) => [("labels", write labels), ("boot_epoch", write epoch)]
  | hostHeartbeat labels => [("labels", write labels)]
  | hostStopped => []
  | instanceStarted component componentKind imageRef instanceId annotations =>
    [("component", write component), ("component_kind", write componentKind),
      ("image_ref", write imageRef), ("instance", write instanceId),
      ("annotations", write annotations)]
  | instanceStopped component instanceId =>
    [("component", write component), ("instance", write instanceId)]
  | providerHealth component healthy =>
    [("component", write component), ("healthy", write healthy)]
  | linkSet link => [("link", write link)]
  | linkDeleted key => [("key", write key)]

/-- Reads the kind of events with a name from the record of its members. -/
def readNamed? (record : Json) : String → Option LatticeEventKind
  | "host_started" => do
    let fields ← record.fields? ["labels", "boot_epoch"]
    return hostStarted (← fields.orElse? .tagged "labels" ∅)
      (← fields.orElse? .tagged "boot_epoch" none)
  | "host_heartbeat" => do
    let fields ← record.fields? ["labels"]
    return hostHeartbeat (← fields.orElse? .tagged "labels" ∅)
  | "host_stopped" => do
    let _ ← record.fields? []
    return hostStopped
  | "instance_started" => do
    let fields ← record.fields?
      ["component", "component_kind", "image_ref", "instance", "annotations"]
    return instanceStarted (← fields.required? .tagged "component")
      (← fields.required? .tagged "component_kind") (← fields.required? .tagged "image_ref")
      (← fields.required? .tagged "instance") (← fields.orElse? .tagged "annotations" ∅)
  | "instance_stopped" => do
    let fields ← record.fields? ["component", "instance"]
    return instanceStopped (← fields.required? .tagged "component")
      (← fields.required? .tagged "instance")
  | "provider_health" => do
    let fields ← record.fields? ["component", "healthy"]
    return providerHealth (← fields.required? .tagged "component")
      (← fields.required? .tagged "healthy")
  | "link_set" => do
    let fields ← record.fields? ["link"]
    return linkSet (← fields.required? .tagged "link")
  | "link_deleted" => do
    let fields ← record.fields? ["key"]
    return linkDeleted (← fields.required? .tagged "key")
  | _ => none

end LatticeEventKind

instance : JsonForm LatticeEventKind where
  write kind := (Json.object kind.members).tagWith "type" kind.name
  read? _ json := do
    let (name, record) ← json.tagged? "type"
    LatticeEventKind.readNamed? record name

instance : JsonForm LatticeEvent where
  write event :=
    .object [("lattice", write event.lattice), ("host", write event.host),
      ("sequence", write event.sequence), ("occurred_at", write event.occurredAt),
      ("kind", write event.kind)]
  read? reading json := do
    let fields ← json.fields? ["lattice", "host", "sequence", "occurred_at", "kind"]
    return {
      lattice := ← fields.required? reading "lattice"
      host := ← fields.required? reading "host"
      sequence := ← fields.required? reading "sequence"
      occurredAt := ← fields.required? reading "occurred_at"
      kind := ← fields.required? reading "kind" }

end Reconciler
