import Reconciler.Engine.Basic

/-!
# Sessions

A session is an engine at a moment, together with the backend that it works on. What operators ask
for is a call: it changes the session and answers, or fails. A call that fails because the store is
out of reach makes the engine stop acting.
-/

namespace Reconciler

/-- An engine at work. -/
structure Session where
  now : Moment
  backend : Backend
  engine : Engine
deriving DecidableEq, Inhabited

namespace Session

/-- Announces an event. -/
def publish (session : Session) (event : ControlEvent) : Session :=
  { session with
    engine := { session.engine with
      events := session.engine.events.publish session.now.wall event } }

/-- Announces events one after the other. -/
def publishAll (session : Session) (events : List ControlEvent) : Session :=
  events.foldl publish session

/-- Makes the engine stop acting, unless it has done so already. -/
def reportFatal (session : Session) (reason : String) : Session :=
  match session.engine.health with
  | .unhealthy .. => session
  | .healthy =>
    let health := EngineHealth.unhealthy reason session.now.wall
    ({ session with engine := { session.engine with health := health } } : Session).publish
      (.engineUnhealthy reason)

/-- Lets the engine act again; every actor looks again if it had stopped. -/
def recover (session : Session) : Session :=
  match session.engine.health with
  | .healthy => session
  | .unhealthy .. =>
    let session :=
      ({ session with engine := { session.engine with health := .healthy } } : Session).publish
        .engineRecovered
    { session with engine := session.engine.nudgeAll (fun _ => true) .resync }

/-- Makes the engine stop acting if the store is out of reach. -/
def noteStoreError (session : Session) (problem : StoreError) : Session :=
  if problem.isFatal then session.reportFatal problem.message else session

/-- Makes the engine stop acting if the transport is gone. -/
def noteDispatchError (session : Session) (problem : DispatchError) : Session :=
  if problem.isFatal then session.reportFatal problem.message else session

/-- Wakes the actors that a change in a lattice concerns. -/
def notify (session : Session) (lattice : LatticeId) (scope : ChangeScope) : Session :=
  let concerns (key : ActorKey) : Bool :=
    key.lattice == lattice &&
      match scope with
      | .lattice => true
      | .app app => key.app == app
  { session with engine := session.engine.nudgeAll concerns .observed }

/-- Offers a command to the transport, and takes note of the answer. -/
def transmit (session : Session) (command : Command) :
    Session × Except DispatchError (Option AckOutcome) :=
  let (sink, result) := session.engine.sink.offer command
  let (dispatcher, outcome) := session.engine.dispatcher.conclude session.now command result
  ({ session with engine := { session.engine with sink := sink, dispatcher := dispatcher } },
    outcome)

end Session

/-- What an operator asks of an engine. -/
abbrev Call (α : Type) :=
  ExceptT ControlError (StateM Session) α

/-- The answer of a call, and the chores that come before it can be given. -/
structure Pending (α : Type) where
  chores : List Chore
  answer : α
deriving Inhabited

namespace Call

/-- Fails because of the store. -/
def failStore {α : Type} (problem : StoreError) : Call α := do
  modify fun session => session.noteStoreError problem
  throw (.store problem)

/-- Asks the store for something that leaves it as it is. -/
def query {α : Type} (request : StoreRequest) (answer : Store → Except StoreError α) :
    Call α := do
  match (← get).backend.query request answer with
  | .ok value => return value
  | .error problem => failStore problem

/-- Asks the store for something that changes it. -/
def change {α : Type} (request : StoreRequest)
    (answer : Store → Except StoreError (Store × α)) : Call α := do
  match (← get).backend.change request answer with
  | .ok (backend, value) =>
    modify fun session => { session with backend := backend }
    return value
  | .error problem => failStore problem

/-- Announces an event. -/
def publish (event : ControlEvent) : Call Unit :=
  modify fun session => session.publish event

/-- Fails unless the engine acts. -/
def ensureHealthy : Call Unit := do
  match (← get).engine.health with
  | .healthy => return
  | .unhealthy reason _ => throw (.unhealthy reason)

/-- Fails unless an application is the engine's own. -/
def ensureOwned (app : AppName) : Call Unit := do
  let engine := (← get).engine
  if engine.owns app then return else throw (.notAssigned app engine.name)

/-- Makes sure that an application has an actor: its number, and whether it is a new one. -/
def ensureActor (key : ActorKey) (intent : Intent) : Call (Nat × Bool) := do
  let session ← get
  let (engine, number, isNew) := session.engine.ensureActor key intent
  set { session with engine := engine }
  return (number, isNew)

/-- Wakes the actor of an application, which is started if need be: the chores of doing so. -/
def trigger (key : ActorKey) (intent : Intent) (trigger : Trigger) : Call (List Chore) := do
  let (number, _) ← ensureActor key intent
  return [.deliver number trigger false]

/-- Where an application is deployed, if it is. -/
def deployment? (app : AppName) : Call (Option DeploymentRecord) :=
  query .deployment fun store => .ok (store.deployment? app)

/-- The current version of an application. -/
def getCurrent (app : AppName) : Call Manifest :=
  query .getCurrent fun store => store.getCurrent app

/-- Makes a version current that is there already. -/
def rollbackStore (app : AppName) (version : String) : Call Manifest :=
  change .rollback fun store => store.rollback app version

/-- Deletes an application from the store; the answer is whether there was one. -/
def deleteStored (app : AppName) : Call Bool :=
  change .delete fun store => .ok (store.delete app)

/-- Records where an application is deployed. -/
def setDeployment (app : AppName) (record : DeploymentRecord) : Call Unit :=
  change .setDeployment fun store => (store.setDeployment app (some record)).map (·, ())

end Call

end Reconciler
