import Reconciler.Engine.Session
import Reconciler.Placement.Evaluation

/-!
# Moves of actors

An actor takes a trigger, waits for more after a change, and then goes through a cycle: it compares
the manifest with the lattice and dispatches the actions that are missing. A move of an actor goes
up to the next point where it has to wait for a trigger, for a time or for the transport.

A teardown is complete when nothing is missing and no command is under way. A graceful one then
deletes the application, unless it was deployed again or deleted meanwhile.
-/

namespace Reconciler

namespace Session

/-- A session and an actor of it, while the actor moves. -/
abbrev Acting :=
  Session × Actor

/-- The session with an actor as it is after a move. -/
def putActor (session : Session) (actor : Actor) : Session :=
  { session with engine := session.engine.updateActor actor.number fun _ => actor }

/-- The actor gives up a cycle because of the store. -/
def failCycle (session : Session) (actor : Actor) (problem : StoreError) : Acting :=
  (session.noteStoreError problem,
    { actor with stage := .receiving, status := { actor.status with phase := .idle } })

/-- The actor has nothing left to do until the application is deployed again. -/
def rest (actor : Actor) : Actor :=
  { actor with intent := .dormant, status := { actor.status with dormant := true } }

/-- Deletes an application that is being removed from a lattice. -/
def deleteRemoved (session : Session) (key : ActorKey) : Except StoreError Session := do
  match ← session.backend.deployment? key.app with
  | some record =>
    if record.phase = .undeploying ∧ record.lattice = key.lattice then
      let (backend, _) ← session.backend.delete key.app
      return ({ session with backend := backend } : Session).publish (.applicationDeleted key.app)
    else return session
  | none => return session

/-- Completes a teardown. -/
def finishTeardown (session : Session) (actor : Actor) : UndeployMode → Acting
  | .force => (session, rest actor)
  | .graceful =>
    match session.deleteRemoved actor.key with
    | .ok session => (session, rest actor)
    | .error problem => session.failCycle actor problem

/-- Completes a cycle. -/
def finishCycle (session : Session) (actor : Actor) (cycle : Cycle) : Acting :=
  let key := actor.key
  let session := session.publish
    (.reconcileCompleted key.app key.lattice cycle.total.toUInt64 cycle.sent.toUInt64)
  let status := actor.status.afterCycle session.now.wall cycle.total
  let actor := { actor with stage := .receiving, status := status }
  let inFlight := session.engine.dispatcher.inFlightFor key.lattice key.app
  match actor.intent with
  | .teardown mode =>
    if cycle.total = 0 ∧ inFlight = 0 then session.finishTeardown actor mode else (session, actor)
  | _ => (session, actor)

/-- Dispatches actions one after the other, as far as the transport answers at once. -/
def dispatchAll (session : Session) (actor : Actor) (total sent : Nat) :
    List RequiredAction → Acting
  | [] => session.finishCycle actor ⟨total, sent, []⟩
  | action :: actions =>
    let key := actor.key
    match session.engine.dispatcher.propose session.now key.lattice key.app action with
    | (dispatcher, .offer command) =>
      let session := { session with engine := { session.engine with dispatcher := dispatcher } }
      if 0 < session.engine.sink.delay then
        let answersAt := session.now.elapsed + session.engine.sink.delay
        (session, { actor with stage := .sending ⟨total, sent, actions⟩ command answersAt })
      else
        match session.transmit command with
        | (session, .ok _) => session.dispatchAll actor total (sent + 1) actions
        | (session, .error problem) =>
          (session.noteDispatchError problem).finishCycle actor ⟨total, sent, []⟩
    | _ => session.dispatchAll actor total sent actions

/-- Goes on with a cycle after the transport has taken its time for a command. -/
def resumeCycle (session : Session) (actor : Actor) (cycle : Cycle) (command : Command) : Acting :=
  match session.transmit command with
  | (session, .ok _) => session.dispatchAll actor cycle.total (cycle.sent + 1) cycle.remaining
  | (session, .error problem) => (session.noteDispatchError problem).finishCycle actor cycle

/-- The actions that an actor finds to be missing. -/
def missing (session : Session) (actor : Actor) : Except StoreError (List RequiredAction) :=
  let observed := session.backend.snapshot actor.key.lattice
  match actor.intent with
  | .converge =>
    match session.backend.getCurrent actor.key.app with
    | .ok manifest => .ok (evaluate manifest observed)
    | .error (.notFound _) => .ok []
    | .error problem => .error problem
  | .teardown _ => .ok (evaluateTeardown actor.key.app observed)
  | .dormant => .ok []

/-- Whether an actor is to look at its application when it has taken its triggers. -/
def mayLook (session : Session) (actor : Actor) : Bool :=
  actor.intent != .dormant && session.engine.health.isHealthy && session.engine.owns actor.key.app

/-- Begins a cycle, if the actor is to look at its application. -/
def beginCycle (session : Session) (actor : Actor) : Acting :=
  if session.mayLook actor then
    match session.missing actor with
    | .ok actions =>
      let actor := { actor with status := { actor.status with phase := .dispatching } }
      session.dispatchAll actor actions.length 0 actions
    | .error problem => session.failCycle actor problem
  else (session, { actor with stage := .receiving })

/-- The session after an actor has waited long enough: it takes its triggers, and ends or looks. -/
def wake (session : Session) (actor : Actor) : Session :=
  let actor := actor.drain session.engine.config.reconcile.batch
  if actor.isEnding then
    { session with engine := session.engine.removeActor actor.number }
  else
    let (session, actor) := session.beginCycle actor
    session.putActor actor

/-- The session after an actor that waits for triggers has taken one. -/
def receive (session : Session) (actor : Actor) (trigger : Trigger) : Session :=
  let window := session.engine.config.reconcile.debounce
  let actor := actor.absorb trigger
  if trigger = .observed ∧ 0 < window then
    session.putActor { actor with stage := .debouncing (session.now.elapsed + window) }
  else session.wake actor

/-- The session after an actor that waits for more triggers has taken one. -/
def receiveMore (session : Session) (actor : Actor) (trigger : Trigger) : Session :=
  let actor := actor.absorb trigger
  if trigger.isBackground then session.putActor actor else session.wake actor

/-- The session after an actor has moved, if it can. -/
def moveActor (session : Session) (actor : Actor) : Session :=
  match actor.stage, actor.queue with
  | .receiving, [] => session
  | .receiving, trigger :: queue => session.receive { actor with queue := queue } trigger
  | .debouncing deadline, queue =>
    if deadline ≤ session.now.elapsed then session.wake actor
    else
      match queue with
      | [] => session
      | trigger :: queue => session.receiveMore { actor with queue := queue } trigger
  | .sending cycle command answersAt, _ =>
    if answersAt ≤ session.now.elapsed then
      let (session, actor) := session.resumeCycle actor cycle command
      session.putActor actor
    else session

end Session

end Reconciler
