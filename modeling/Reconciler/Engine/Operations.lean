import Reconciler.Engine.Session
import Reconciler.Engine.Status

/-!
# What operators ask of engines

Manifests and deployments: an engine that does not act, or that the application does not belong to,
refuses. What changes the desired state of a deployed application wakes its actor.
-/

namespace Reconciler

namespace Session

/-- What a session tells of an application with a deployment and a manifest, if it has them. -/
def report (session : Session) (app : AppName) (deployment : Option DeploymentRecord)
    (manifest : Option Manifest) : StatusReport :=
  let engine := session.engine
  let lattice := deployment.map DeploymentRecord.lattice
  let managed := (lattice.map fun lattice =>
    (session.backend.snapshot lattice).managedInstances app).getD []
  let inFlight := (lattice.map fun lattice => engine.dispatcher.inFlightFor lattice app).getD 0
  let failures := (lattice.map fun lattice => engine.dispatcher.failuresFor lattice app).getD []
  let actor := lattice.bind fun lattice => engine.actorStatus? ⟨lattice, app⟩
  { app := app
    phase := .derive deployment failures inFlight actor
    lattice := lattice
    desired := manifest.map Manifest.summary
    components := (manifest.map fun manifest =>
      manifest.components.map (ComponentStatus.collect manifest managed)).getD []
    inFlight := inFlight.toUInt64
    failures := failures
    lastReconciledAt := actor.bind ActorStatus.lastReconciledAt
    engine := engine.health }

end Session

namespace Call

/-- The chores of waking the actor of an application that is actively deployed. -/
def triggerDeployed (app : AppName) (cause : Trigger) : Call (List Chore) := do
  match ← deployment? app with
  | some record =>
    match record.phase with
    | .active => trigger ⟨record.lattice, app⟩ .converge cause
    | .undeploying => return []
  | none => return []

/-- Stores a new version, which becomes current, and answers with its label. -/
def submit (manifest : Manifest) : Call (Pending String) := do
  ensureHealthy
  ensureOwned manifest.name
  let now := (← get).now.wall
  let version ← change .put fun store => store.put now manifest.name manifest
  publish (.manifestSubmitted manifest.name version)
  let chores ← triggerDeployed manifest.name .deploy
  return ⟨chores, version⟩

/-- Makes a version current that is there already, and answers with its label. -/
def rollback (app : AppName) (version : String) : Call (Pending String) := do
  ensureHealthy
  ensureOwned app
  let manifest ← rollbackStore app version
  publish (.rolledBack app manifest.version)
  let chores ← triggerDeployed app .rollback
  return ⟨chores, manifest.version⟩

/-- The stored applications in order. -/
def listApplications : Call (List AppName) :=
  query .listApplications fun store => .ok store.listApplications

/-- The versions of an application, the oldest first. -/
def listVersions (app : AppName) : Call (List VersionInfo) :=
  query .listVersions fun store => store.listVersions app

/-- Removes old versions of an application, and answers how many. -/
def prune (app : AppName) (keep : Nat) : Call Nat := do
  ensureOwned app
  change .prune fun store => store.prune app keep

/-- Fails if an application is deployed to another lattice. -/
def ensureDeployable (app : AppName) (lattice : LatticeId) : Call Unit := do
  match ← deployment? app with
  | some record =>
    if record.lattice = lattice then return else throw (.alreadyDeployed app record.lattice)
  | none => return

/-- The manifest to deploy: the current version, or one that is made current first. -/
def selectVersion (app : AppName) (version : Option String) : Call Manifest := do
  let current ← getCurrent app
  match version with
  | some version =>
    if version = current.version then return current else rollbackStore app version
  | none => return current

/-- Deploys a version, the current one if none is given, and answers with its label. -/
def deploy (app : AppName) (version : Option String) (lattice : LatticeId) :
    Call (Pending String) := do
  ensureHealthy
  ensureOwned app
  ensureDeployable app lattice
  let manifest ← selectVersion app version
  setDeployment app ⟨lattice, .active, (← get).now.wall⟩
  let chores ← trigger ⟨lattice, app⟩ .converge .deploy
  let event := ControlEvent.deployRequested app lattice manifest.version
  return ⟨chores ++ [.publish event], manifest.version⟩

/-- Records that an application is being removed, or deletes it at once. -/
def beginRemoval (app : AppName) (lattice : LatticeId) : UndeployMode → Call Unit
  | .graceful => do
    setDeployment app ⟨lattice, .undeploying, (← get).now.wall⟩
  | .force => do
    let _ ← deleteStored app
    publish (.applicationDeleted app)

/-- Removes everything of an application from its lattice. -/
def undeploy (app : AppName) (mode : UndeployMode) : Call (Pending Unit) := do
  ensureHealthy
  ensureOwned app
  match ← deployment? app with
  | none => throw (.notDeployed app)
  | some record =>
    beginRemoval app record.lattice mode
    let chores ← trigger ⟨record.lattice, app⟩ (.teardown mode) (.undeploy mode)
    let event := ControlEvent.undeployRequested app record.lattice (mode == .force)
    return ⟨chores ++ [.publish event], ()⟩

/-- Deletes an application with its history, and removes it from its lattice if it is deployed. -/
def deleteApplication (app : AppName) : Call (Pending Bool) := do
  ensureHealthy
  ensureOwned app
  if (← deployment? app).isSome then
    let pending ← undeploy app .force
    return ⟨pending.chores, true⟩
  else
    let existed ← deleteStored app
    if existed then publish (.applicationDeleted app)
    return ⟨[], existed⟩

/-- The current version of an application, if it is stored at all. -/
def currentIfAny (app : AppName) : Call (Option Manifest) :=
  query .getCurrent fun store =>
    match store.getCurrent app with
    | .ok manifest => .ok (some manifest)
    | .error (.notFound _) => .ok none
    | .error problem => .error problem

/-- What the engine tells of an application. -/
def status (app : AppName) : Call StatusReport := do
  let deployment ← deployment? app
  let manifest ← currentIfAny app
  if manifest.isNone && deployment.isNone then throw (.store (.notFound app))
  return (← get).report app deployment manifest

end Call

end Reconciler
