import Reconciler.Control.Event
import Reconciler.Json.Form

/-!
# JSON forms of control events

A control event is a variant of a choice, by its name and its fields.
-/

namespace Reconciler

open JsonForm

/-- The names of the parts of an engine. -/
def EventSource.names : NameTable EventSource where
  nameOf
    | .manifest => "Manifest"
    | .projector => "Projector"
    | .reconciler => "Reconciler"
    | .dispatcher => "Dispatcher"
    | .coordinator => "Coordinator"
  values := [.manifest, .projector, .reconciler, .dispatcher, .coordinator]
  aliases := []

instance : JsonForm EventSource :=
  EventSource.names.form

/-- The names of severities. -/
def EventSeverity.names : NameTable EventSeverity where
  nameOf
    | .debug => "Debug"
    | .info => "Info"
    | .warning => "Warning"
    | .error => "Error"
    | .critical => "Critical"
  values := [.debug, .info, .warning, .error, .critical]
  aliases := []

instance : JsonForm EventSeverity :=
  EventSeverity.names.form

namespace ControlEvent

/-- Reads the event with a name from its content. -/
def readNamed? (reading : Reading) (content : Content) : String → Option ControlEvent
  | "ManifestSubmitted" => do
    let fields ← content.fields? reading ["app", "version"]
    return manifestSubmitted (← fields.required? reading "app")
      (← fields.required? reading "version")
  | "DeployRequested" => do
    let fields ← content.fields? reading ["app", "lattice", "version"]
    return deployRequested (← fields.required? reading "app")
      (← fields.required? reading "lattice") (← fields.required? reading "version")
  | "RolledBack" => do
    let fields ← content.fields? reading ["app", "version"]
    return rolledBack (← fields.required? reading "app") (← fields.required? reading "version")
  | "UndeployRequested" => do
    let fields ← content.fields? reading ["app", "lattice", "force"]
    return undeployRequested (← fields.required? reading "app")
      (← fields.required? reading "lattice") (← fields.required? reading "force")
  | "ApplicationDeleted" => do
    let fields ← content.fields? reading ["app"]
    return applicationDeleted (← fields.required? reading "app")
  | "ReconcileCompleted" => do
    let fields ← content.fields? reading ["app", "lattice", "actions", "sent"]
    return reconcileCompleted (← fields.required? reading "app")
      (← fields.required? reading "lattice") (← fields.required? reading "actions")
      (← fields.required? reading "sent")
  | "CommandRetried" => do
    let fields ← content.fields? reading ["key", "attempt", "reason"]
    return commandRetried (← fields.required? reading "key")
      (← fields.required? reading "attempt") (← fields.required? reading "reason")
  | "CommandFailed" => do
    let fields ← content.fields? reading ["key", "attempts", "reason"]
    return commandFailed (← fields.required? reading "key")
      (← fields.required? reading "attempts") (← fields.required? reading "reason")
  | "HostExpired" => do
    let fields ← content.fields? reading ["lattice", "host"]
    return hostExpired (← fields.required? reading "lattice") (← fields.required? reading "host")
  | "PartitionChanged" => do
    let fields ← content.fields? reading ["owned"]
    return partitionChanged (← fields.required? reading "owned")
  | "EngineUnhealthy" => do
    let fields ← content.fields? reading ["reason"]
    return engineUnhealthy (← fields.required? reading "reason")
  | "EngineRecovered" => if content.isUnit reading then some engineRecovered else none
  | _ => none

end ControlEvent

instance : JsonForm ControlEvent where
  write
    | .manifestSubmitted app version =>
      .variantForm "ManifestSubmitted" [("app", write app), ("version", write version)]
    | .deployRequested app lattice version =>
      .variantForm "DeployRequested"
        [("app", write app), ("lattice", write lattice), ("version", write version)]
    | .rolledBack app version =>
      .variantForm "RolledBack" [("app", write app), ("version", write version)]
    | .undeployRequested app lattice force =>
      .variantForm "UndeployRequested"
        [("app", write app), ("lattice", write lattice), ("force", write force)]
    | .applicationDeleted app => .variantForm "ApplicationDeleted" [("app", write app)]
    | .reconcileCompleted app lattice actions sent =>
      .variantForm "ReconcileCompleted"
        [("app", write app), ("lattice", write lattice), ("actions", write actions),
          ("sent", write sent)]
    | .commandRetried key attempt reason =>
      .variantForm "CommandRetried"
        [("key", write key), ("attempt", write attempt), ("reason", write reason)]
    | .commandFailed key attempts reason =>
      .variantForm "CommandFailed"
        [("key", write key), ("attempts", write attempts), ("reason", write reason)]
    | .hostExpired lattice host =>
      .variantForm "HostExpired" [("lattice", write lattice), ("host", write host)]
    | .partitionChanged owned => .variantForm "PartitionChanged" [("owned", write owned)]
    | .engineUnhealthy reason => .variantForm "EngineUnhealthy" [("reason", write reason)]
    | .engineRecovered => .string "EngineRecovered"
  read? reading json := do
    let (name, content) ← json.variant?
    ControlEvent.readNamed? reading content name

instance : JsonForm ControlEventEnvelope where
  write envelope :=
    .object [("id", write envelope.id), ("timestamp", write envelope.timestamp),
      ("source", write envelope.source), ("severity", write envelope.severity),
      ("engine", write envelope.engine), ("correlation_id", write envelope.correlationId),
      ("event", write envelope.event)]
  read? reading json := do
    let fields ← json.fields?
      ["id", "timestamp", "source", "severity", "engine", "correlation_id", "event"]
    return {
      id := ← fields.required? reading "id"
      timestamp := ← fields.required? reading "timestamp"
      source := ← fields.required? reading "source"
      severity := ← fields.required? reading "severity"
      engine := ← fields.required? reading "engine"
      correlationId := ← fields.optional? reading "correlation_id"
      event := ← fields.required? reading "event" }

end Reconciler
