import Reconciler.Engine.Status
import Reconciler.Engine.Trigger
import Reconciler.Wire.Command
import Reconciler.Wire.Manifest

/-!
# JSON forms of status reports

The phase of an application is tagged with `phase`, the health of an engine with `state`.
-/

namespace Reconciler

open JsonForm

/-- The names of the ways to remove applications. -/
def UndeployMode.names : NameTable UndeployMode where
  nameOf
    | .graceful => "graceful"
    | .force => "force"
  values := [.graceful, .force]
  aliases := []

instance : JsonForm UndeployMode :=
  UndeployMode.names.form

/-- The names of what actors do. -/
def ActorPhase.names : NameTable ActorPhase where
  nameOf
    | .idle => "idle"
    | .evaluating => "evaluating"
    | .dispatching => "dispatching"
  values := [.idle, .evaluating, .dispatching]
  aliases := []

instance : JsonForm ActorPhase :=
  ActorPhase.names.form

instance : JsonForm ActorStatus where
  write status :=
    .object [("phase", write status.phase), ("cycles", write status.cycles),
      ("last_actions", write status.lastActions),
      ("last_reconciled_at", write status.lastReconciledAt), ("dormant", write status.dormant)]
  read? reading json := do
    let fields ← json.fields?
      ["phase", "cycles", "last_actions", "last_reconciled_at", "dormant"]
    return {
      phase := ← fields.required? reading "phase"
      cycles := ← fields.required? reading "cycles"
      lastActions := ← fields.required? reading "last_actions"
      lastReconciledAt := ← fields.optional? reading "last_reconciled_at"
      dormant := ← fields.required? reading "dormant" }

instance : JsonForm EngineHealth where
  write
    | .healthy => .object [("state", .string "healthy")]
    | .unhealthy reason since =>
      .object [("state", .string "unhealthy"), ("reason", write reason), ("since", write since)]
  read? _ json := do
    let (name, record) ← json.tagged? "state"
    match name with
    | "healthy" =>
      let _ ← record.fields? []
      return .healthy
    | "unhealthy" =>
      let fields ← record.fields? ["reason", "since"]
      return .unhealthy (← fields.required? .tagged "reason")
        (← fields.required? .tagged "since")
    | _ => none

/-- The names of the phases of applications that have no content. -/
def AppPhase.plain : List (String × AppPhase) :=
  [("undeployed", undeployed), ("reconciling", reconciling), ("deployed", deployed),
    ("undeploying", undeploying)]

instance : JsonForm AppPhase where
  write
    | .undeployed => .object [("phase", .string "undeployed")]
    | .reconciling => .object [("phase", .string "reconciling")]
    | .deployed => .object [("phase", .string "deployed")]
    | .undeploying => .object [("phase", .string "undeploying")]
    | .failed reason => .object [("phase", .string "failed"), ("reason", write reason)]
  read? _ json := do
    let (name, record) ← json.tagged? "phase"
    match name with
    | "failed" =>
      let fields ← record.fields? ["reason"]
      return .failed (← fields.required? .tagged "reason")
    | name =>
      let _ ← record.fields? []
      AppPhase.plain.lookup name

instance : JsonForm ComponentStatus where
  write status :=
    .object [("id", write status.id), ("name", write status.name), ("kind", write status.kind),
      ("desired", write status.desired), ("observed", write status.observed),
      ("running", write status.running), ("pending", write status.pending),
      ("failed", write status.failed)]
  read? reading json := do
    let fields ← json.fields?
      ["id", "name", "kind", "desired", "observed", "running", "pending", "failed"]
    return {
      id := ← fields.required? reading "id"
      name := ← fields.required? reading "name"
      kind := ← fields.required? reading "kind"
      desired := ← fields.optional? reading "desired"
      observed := ← fields.required? reading "observed"
      running := ← fields.required? reading "running"
      pending := ← fields.required? reading "pending"
      failed := ← fields.required? reading "failed" }

instance : JsonForm StatusReport where
  write report :=
    .object [("app", write report.app), ("phase", write report.phase),
      ("lattice", write report.lattice), ("desired", write report.desired),
      ("components", write report.components), ("in_flight", write report.inFlight),
      ("failures", write report.failures),
      ("last_reconciled_at", write report.lastReconciledAt), ("engine", write report.engine)]
  read? reading json := do
    let fields ← json.fields?
      ["app", "phase", "lattice", "desired", "components", "in_flight", "failures",
        "last_reconciled_at", "engine"]
    return {
      app := ← fields.required? reading "app"
      phase := ← fields.required? reading "phase"
      lattice := ← fields.optional? reading "lattice"
      desired := ← fields.optional? reading "desired"
      components := ← fields.required? reading "components"
      inFlight := ← fields.required? reading "in_flight"
      failures := ← fields.required? reading "failures"
      lastReconciledAt := ← fields.optional? reading "last_reconciled_at"
      engine := ← fields.required? reading "engine" }

end Reconciler
