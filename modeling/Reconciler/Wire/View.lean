import Reconciler.Config.Basic
import Reconciler.Dispatch.Sweep
import Reconciler.Engine.Status
import Reconciler.Projection.Projector
import Reconciler.Wire.Config
import Reconciler.Wire.Control
import Reconciler.Wire.State
import Reconciler.Wire.Status
import Reconciler.Wire.Store

/-!
# Views

What is shown of a run: JSON without the times and identities that differ from one run to the next.
Views are written and never read back.
-/

namespace Reconciler

open JsonForm

/-- The view of what an event has done. -/
def Applied.view : Applied → Json
  | skipped => .string "skipped"
  | recorded => .string "recorded"
  | changed .lattice => .object [("changed", .string "lattice")]
  | changed (.app name) => .object [("changed", .object [("app", write name)])]

/-- The view of the state of a lattice. -/
def ObservedState.view (state : ObservedState) : Json :=
  .object [("lattice", write state.lattice), ("hosts", state.hosts.nameForm HostState.form),
    ("retired", write state.retiredHosts), ("links", write state.links.values)]

namespace PlacedInstance

/-- The view of where an instance is. -/
def view (placed : PlacedInstance) : Json :=
  .array [write placed.host, write placed.id]

/-- The view of where an instance is and what it is. -/
def fullView (placed : PlacedInstance) : Json :=
  .array [write placed.host, write placed.id, write placed.record.component,
    .string placed.record.imageRef, write placed.record.status]

end PlacedInstance

/-- The view of a change. -/
def StateChange.view (change : StateChange) : Json :=
  .object [("lattice", write change.lattice), ("host", write change.host),
    ("scope", match change.scope with
      | .lattice => .string "lattice"
      | .app name => .object [("app", write name)])]

/-- The view of a version in a list of versions. -/
def VersionInfo.view (info : VersionInfo) : Json :=
  .object [("version", .string info.version), ("current", .bool info.current)]

/-- The view of a deployment. -/
def DeploymentRecord.view (record : DeploymentRecord) : Json :=
  .object [("lattice", write record.lattice), ("phase", write record.phase)]

/-- The view of an event as it is reported. -/
def ControlEventEnvelope.view (envelope : ControlEventEnvelope) : Json :=
  .object [("source", write envelope.source), ("severity", write envelope.severity),
    ("engine", write envelope.engine), ("correlation_id", write envelope.correlationId),
    ("event", write envelope.event)]

/-- The view of the limits on the life of commands. -/
def RetryPolicy.view (policy : RetryPolicy) : Json :=
  .object [("max_attempts", write policy.maxAttempts),
    ("base_backoff_ms", .integer policy.baseBackoff),
    ("max_backoff_ms", .integer policy.maxBackoff), ("ack_timeout_ms", .integer policy.ackTimeout),
    ("entry_ttl_ms", .integer policy.entryTtl)]

/-- The view of settings and of what follows from them. -/
def ControlConfig.view (config : ControlConfig) : Json :=
  .object [("config", write config), ("debounce_ms", .integer config.reconcile.debounce),
    ("resync_interval_secs", .integer config.reconcile.resyncSeconds),
    ("reap_interval_ms", .integer config.dispatch.reapInterval),
    ("host_interval_secs", .integer config.projector.hostSeconds),
    ("policy", config.dispatch.policy.view)]

/-- The view of a command that has failed for good. -/
def FailureReport.view (report : FailureReport) : Json :=
  .object [("key", write report.key), ("component", write report.component),
    ("attempts", write report.attempts), ("reason", .string report.reason)]

/-- The view of what an acknowledgement has done. -/
def AckOutcome.view : AckOutcome → Json
  | settled => .object [("outcome", .string "settled")]
  | stale => .object [("outcome", .string "stale")]
  | retrying attempt retryIn =>
    .object [("outcome", .string "retrying"), ("attempt", write attempt),
      ("retry_in_ms", .integer retryIn)]
  | failed report => .object [("outcome", .string "failed"), ("report", report.view)]

/-- The name of what became of an action. -/
def DispatchOutcome.name : DispatchOutcome → String
  | sent _ => "sent"
  | merged _ => "merged"
  | suppressed _ => "suppressed"

/-- The view of what a sweep has done, in the order of keys. -/
def ReapReport.view (report : ReapReport) : Json :=
  let retried := report.retried.mergeSort fun first second =>
    ((compare first.1 second.1).then (compare first.2 second.2)) != .gt
  let failed := report.failed.mergeSort fun first second => compare first.key second.key != .gt
  .object [
    ("retried", .array (retried.map fun (key, attempt) => .array [write key, write attempt])),
    ("failed", .array (failed.map FailureReport.view)), ("expired", .integer report.expired),
    ("observed", .integer report.observed)]

/-- The view of the health of an engine. -/
def EngineHealth.view : EngineHealth → Json
  | healthy => .object [("state", .string "healthy")]
  | unhealthy reason _ => .object [("state", .string "unhealthy"), ("reason", .string reason)]

/-- The view of what an engine tells of an application. -/
def StatusReport.view (report : StatusReport) : Json :=
  .object [("app", write report.app), ("phase", write report.phase),
    ("lattice", write report.lattice), ("version", write report.version?),
    ("desired", write report.desired), ("components", write report.components),
    ("in_flight", write report.inFlight),
    ("failures", .array (report.failures.map FailureReport.view)),
    ("reconciled", .bool report.lastReconciledAt.isSome), ("engine", report.engine.view)]

/-- The view of how far an actor has come. -/
def ActorStatus.view (status : ActorStatus) : Json :=
  .object [("phase", write status.phase), ("cycles", write status.cycles),
    ("last_actions", write status.lastActions),
    ("reconciled", .bool status.lastReconciledAt.isSome), ("dormant", .bool status.dormant)]

namespace ControlEvent

/-- What an event is about; events about different things are shown apart. -/
def subject : ControlEvent → String
  | manifestSubmitted app _ => "app " ++ app.text
  | deployRequested app _ _ => "app " ++ app.text
  | rolledBack app _ => "app " ++ app.text
  | undeployRequested app _ _ => "app " ++ app.text
  | applicationDeleted app => "app " ++ app.text
  | reconcileCompleted app _ _ _ => "app " ++ app.text
  | commandRetried key _ _ => "key " ++ key.text
  | commandFailed key _ _ => "key " ++ key.text
  | hostExpired lattice host => "host " ++ lattice.text ++ " " ++ host.text
  | partitionChanged _ => ""
  | engineUnhealthy _ => ""
  | engineRecovered => ""

end ControlEvent

/-- Reported events by what they are about, those about one thing in the order of their reports. -/
def ControlEventEnvelope.sortBySubject (envelopes : List ControlEventEnvelope) :
    List ControlEventEnvelope :=
  envelopes.mergeSort fun first second =>
    !decide (second.event.subject < first.event.subject)

end Reconciler
