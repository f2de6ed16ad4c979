import Reconciler.Engine.Observation

/-!
# Upkeep of engines

Engines that share a store split the applications: after a change of the split, an engine takes up
the deployments that have become its own and releases those that no longer are. From time to time
it also looks at everything again, and sweeps over its commands.
-/

namespace Reconciler

namespace Call

/-- What an actor works towards first, going by the deployment of its application. -/
def intentOf : DeploymentPhase → Intent
  | .active => .converge
  | .undeploying => .teardown .graceful

/-- Starts the actors that are missing for deployments; whether there were any. -/
def adopt : List (AppName × DeploymentRecord) → Call Bool
  | [] => return false
  | (app, record) :: rest => do
    let key := ActorKey.mk record.lattice app
    let (_, isNew) ← ensureActor key (intentOf record.phase)
    if isNew then
      modify fun session => { session with engine := session.engine.nudge key .resync }
    let more ← adopt rest
    return isNew || more

/-- Takes up own deployments and releases others, and answers how many deployments are own. -/
def rebalance : Call (Pending Nat) := do
  let deployments ← query .listDeployments fun store => .ok store.listDeployments
  let engine := (← get).engine
  let own := deployments.filter fun deployment => engine.owns deployment.1
  let changed ← adopt own
  let lost := (← get).engine.roster.keys.filter fun key => !engine.owns key.app
  return ⟨[.release lost own.length changed], own.length⟩

/-- Changes the split of applications, and answers how many deployments are own then. -/
def setPartition (partition : Partition) : Call (Pending Nat) := do
  modify fun session =>
    { session with engine := { session.engine with partition := some partition } }
  rebalance

/-- Looks at everything again, after deployments were taken up and released. -/
def resync : Call (Pending Unit) := do
  let pending ← rebalance
  return ⟨pending.chores ++ [.wakeAll], ()⟩

/-- Sweeps over the commands. -/
def reapCommands : Call (Pending Unit) := do
  let session ← get
  let (dispatcher, report, due) := session.engine.dispatcher.beginSweep session.now
  set { session with engine := { session.engine with dispatcher := dispatcher } }
  return ⟨[.resend session.now report due], ()⟩

/-- Takes up own deployments and starts a maintenance loop. -/
def start : Call (Pending Unit) := do
  let pending ← rebalance
  return ⟨pending.chores ++ [.startLoop], ()⟩

/-- Ends the maintenance loops and then all actors, after what they are doing. -/
def shutdown : Call (Pending Unit) := do
  let session ← get
  let engine := session.engine
  let loops := engine.loops.map fun loop => { loop with isEnding := true }
  set { session with engine := { engine with loops := loops, maintenance := none } }
  return ⟨(engine.maintenance.map Chore.awaitLoop).toList ++ [.stopAll], ()⟩

end Call

namespace Session

/-- Assigns an application to an engine that takes assignments; the answer is whether it does. -/
def assign (session : Session) (app : AppName) : Session × Bool :=
  let assignment := session.engine.assignment
  ({ session with
      engine := { session.engine with assignment := assignment.map fun apps => apps.assign app } },
    assignment.isSome)

/-- Takes an application from an engine that takes assignments; the answer is whether it does. -/
def revoke (session : Session) (app : AppName) : Session × Bool :=
  let assignment := session.engine.assignment
  ({ session with
      engine := { session.engine with assignment := assignment.map fun apps => apps.revoke app } },
    assignment.isSome)

/-- What to say of a command that is sent again. -/
def resendReason : String :=
  "resent after backoff"

/-- What is announced of a sweep. -/
def sweepEvents (report : ReapReport) : List ControlEvent :=
  report.retried.map (fun (key, attempt) => .commandRetried key attempt resendReason) ++
    report.failed.map fun failure => .commandFailed failure.key failure.attempts failure.reason

/-- Whether a chore can be done now. -/
def canDo (session : Session) : Chore → Bool
  | .deliver number _ isWaiting =>
    match session.engine.actor? number with
    | some actor => !isWaiting || actor.hasPlace session.engine.capacity
    | none => true
  | .awaitEnd number => (session.engine.actor? number).isNone
  | .awaitLoop number => (session.engine.loop? number).isNone
  | .rest time => time ≤ session.now.elapsed
  | _ => true

/-- What is left of a sweep when it comes to a command that is due. -/
def resendFirst (session : Session) (start : Moment) (report : ReapReport)
    (key : IdempotencyKey) (keys : List IdempotencyKey) : Session × List Chore :=
  match session.engine.dispatcher.reenter? start session.now key with
  | none => (session, [.resend start report keys])
  | some (dispatcher, command) =>
    let session := { session with engine := { session.engine with dispatcher := dispatcher } }
    let delay := session.engine.sink.delay
    let pause := if 0 < delay then [Chore.rest (session.now.elapsed + delay)] else []
    (session, pause ++ [.offer start (Dispatcher.noteRetry report command) command keys])

/-- Puts a trigger into the queue of an actor, or has the caller wait for room there. -/
def deliver (session : Session) (number : Nat) (trigger : Trigger) (isWaiting : Bool) :
    Session × List Chore :=
  let engine := session.engine
  match engine.actor? number with
  | none => (session, [])
  | some actor =>
    if isWaiting then
      let receive (actor : Actor) : Actor :=
        { actor.push trigger with callers := actor.callers - 1 }
      ({ session with engine := engine.updateActor number receive }, [])
    else if actor.hasRoom engine.capacity then
      ({ session with engine := engine.updateActor number (Actor.push · trigger) }, [])
    else
      let await (actor : Actor) : Actor := { actor with callers := actor.callers + 1 }
      ({ session with engine := engine.updateActor number await },
        [.deliver number trigger true])

/-- Takes an actor off the roster; it is still to end. -/
def takeOff (session : Session) (key : ActorKey) : Session × List Chore :=
  let engine := session.engine
  match engine.roster.find? key with
  | none => (session, [])
  | some actor =>
    let engine := { engine with
      roster := engine.roster.erase key
      leaving := engine.leaving ++ [actor] }
    ({ session with engine := engine },
      [.deliver actor.number .shutdown false, .awaitEnd actor.number])

/-- Goes on with the release of actors. -/
def release (session : Session) (owned : Nat) (changed : Bool) :
    List ActorKey → Session × List Chore
  | [] =>
    (if changed then session.publish (.partitionChanged owned.toUInt64) else session, [])
  | key :: keys =>
    if session.engine.roster.contains key then
      (session, [.stop key, .release keys owned true])
    else (session, [.release keys owned changed])

/-- Starts a maintenance loop, for which a shutdown will wait. -/
def startLoop (session : Session) : Session :=
  let engine := session.engine
  let number := engine.loopsStarted
  { session with
    engine := { engine with
      loops := engine.loops ++ [⟨number, none, [], false⟩]
      loopsStarted := number + 1
      maintenance := some number } }

/-- Does a chore that can be done; the answer is what comes in its place. -/
def perform (session : Session) : Chore → Session × Except ControlError (List Chore)
  | .deliver number trigger isWaiting =>
    let (session, chores) := session.deliver number trigger isWaiting
    (session, .ok chores)
  | .awaitEnd _ => (session, .ok [])
  | .stop key =>
    let (session, chores) := session.takeOff key
    (session, .ok chores)
  | .stopAll => (session, .ok (session.engine.roster.keys.map .stop))
  | .release keys owned changed =>
    let (session, chores) := session.release owned changed keys
    (session, .ok chores)
  | .wakeAll =>
    ({ session with engine := session.engine.nudgeAll (fun _ => true) .resync }, .ok [])
  | .startLoop => (session.startLoop, .ok [])
  | .awaitLoop _ => (session, .ok [])
  | .publish event => (session.publish event, .ok [])
  | .resend _ report [] => (session.publishAll (sweepEvents report), .ok [])
  | .resend start report (key :: keys) =>
    let (session, chores) := session.resendFirst start report key keys
    (session, .ok chores)
  | .offer start report command keys =>
    match session.transmit command with
    | (session, .ok outcome) =>
      (session, .ok [.resend start (Dispatcher.noteOutcome report outcome) keys])
    | (session, .error problem) => (session.noteDispatchError problem, .error (.dispatch problem))
  | .rest _ => (session, .ok [])

end Session

end Reconciler
