import Reconciler.Dispatch.Command
import Reconciler.Engine.Health
import Reconciler.Engine.Progress
import Reconciler.Manifest.Summary
import Reconciler.Observed.State
import Reconciler.Store.Record

/-!
# Status reports

What an engine tells of an application: what is asked for, what is observed, and what is still to be
done.
-/

namespace Reconciler

/-- Where an application stands. -/
inductive AppPhase where
  | undeployed
  /-- Something is still missing. -/
  | reconciling
  /-- The last look found nothing missing. -/
  | deployed
  /-- The application is being removed. -/
  | undeploying
  /-- A command has failed for good. -/
  | failed (reason : String)
deriving DecidableEq, Inhabited, Repr

/-- Where an application stands, going by its deployment, its commands and its actor. -/
def AppPhase.derive (deployment : Option DeploymentRecord) (failures : List FailureReport)
    (inFlight : Nat) (actor : Option ActorStatus) : AppPhase :=
  match deployment with
  | none => undeployed
  | some record =>
    match record.phase, failures with
    | .undeploying, _ => undeploying
    | .active, failure :: _ => failed failure.reason
    | .active, [] =>
      if inFlight == 0 && actor.any ActorStatus.isSettled then deployed else reconciling

/-- How many instances of a component are asked for, and how many there are. -/
structure ComponentStatus where
  id : ComponentId
  name : String
  kind : ComponentKind
  /-- The number of instances that its scaler asks for, if it has one. -/
  desired : Option UInt32
  observed : UInt64
  running : UInt64
  pending : UInt64
  failed : UInt64
deriving DecidableEq, Inhabited

namespace ComponentStatus

/-- The number of instances with a status. -/
def countOf (status : InstanceStatus) (placed : List PlacedInstance) : UInt64 :=
  (placed.countP fun instanceOf => instanceOf.record.status == status).toUInt64

/-- The status of a component of a manifest, given the instances of the application. -/
def collect (manifest : Manifest) (managed : List PlacedInstance) (component : Component) :
    ComponentStatus :=
  let id := manifest.componentId component
  let placed := managed.filter fun instanceOf => instanceOf.record.component == id
  { id := id
    name := component.name
    kind := component.kind
    desired := component.scaler?.map SpreadScaler.instances
    observed := placed.length.toUInt64
    running := countOf .running placed
    pending := countOf .pending placed
    failed := countOf .failed placed }

end ComponentStatus

/-- What an engine tells of an application. -/
structure StatusReport where
  app : AppName
  phase : AppPhase
  lattice : Option LatticeId
  /-- The current version in short; nothing is left of it after a forced removal. -/
  desired : Option ManifestSummary
  components : List ComponentStatus
  /-- The number of commands under way. -/
  inFlight : UInt64
  /-- The commands that have failed for good. -/
  failures : List FailureReport
  lastReconciledAt : Option Timestamp
  engine : EngineHealth
deriving DecidableEq, Inhabited

namespace StatusReport

/-- The label of the current version. -/
def version? (report : StatusReport) : Option String :=
  report.desired.map ManifestSummary.version

/-- The status of the component with a name. -/
def component? (report : StatusReport) (name : String) : Option ComponentStatus :=
  report.components.find? fun component => component.name == name

end StatusReport

end Reconciler
