import Reconciler.Engine.Session
import Reconciler.Projection.HostReaper

/-!
# What lattices tell engines

Events change the observed state and wake the actors that they concern; acknowledgements settle
commands. What hosts report of a component also counts for the commands that are to change it.
-/

namespace Reconciler

/-- The component that an event is about, and the host that it is about if not all. -/
def LatticeEvent.subject? (event : LatticeEvent) : Option (ComponentId × Option HostId) :=
  match event.kind with
  | .instanceStarted component .. => some (component, some event.host)
  | .instanceStopped component _ => some (component, some event.host)
  | .linkSet link => some (link.key.source, none)
  | .linkDeleted key => some (key.source, none)
  | _ => none

namespace Session

/-- Takes note for the commands that something has happened to what an event is about. -/
def observe (session : Session) (event : LatticeEvent) : Session :=
  match event.subject? with
  | none => session
  | some (component, host) =>
    let (dispatcher, _) := session.engine.dispatcher.observe event.lattice component host
    { session with engine := { session.engine with dispatcher := dispatcher } }

/-- Takes an event into account. -/
def ingest (session : Session) (event : LatticeEvent) : Session × Applied :=
  let (projector, applied) := session.backend.projector.apply event
  let session := { session with backend := { session.backend with projector := projector } }
  match applied with
  | .changed scope => ((session.observe event).notify event.lattice scope, applied)
  | _ => (session, applied)

/-- Takes events into account one after the other. -/
def ingestAll (session : Session) : List LatticeEvent → Session × List Applied
  | [] => (session, [])
  | event :: events =>
    let (session, applied) := session.ingest event
    let (session, rest) := session.ingestAll events
    (session, applied :: rest)

/--
Takes silent hosts of all lattices for stopped as of a time, and answers how many. Where the reaper
gives no answer, neither does this, and nobody is told of the hosts.
-/
def reapHosts (session : Session) (time : Timestamp) : Session × Option Nat :=
  let config := session.engine.config.projector
  let reaper := HostReaper.new (config.hostSeconds * Timestamp.nanosPerSecond)
    config.hostExpiryIntervals.toNat
  let (projector, reaped) := reaper.reap time session.backend.projector
  let session := { session with backend := { session.backend with projector := projector } }
  match reaped with
  | none => (session, none)
  | some reaped =>
    (reaped.foldl
      (fun session (lattice, host) =>
        (session.notify lattice .lattice).publish (.hostExpired lattice host))
      session, some reaped.length)

/-- What to say of a lattice that no more events come from. -/
def streamEnd : String :=
  "lattice event stream ended"

/-- What is announced of the outcome of an acknowledgement. -/
def ackEvents (ack : CommandAck) : AckOutcome → List ControlEvent
  | .retrying attempt _ =>
    match ack.result with
    | .failure _ reason => [.commandRetried ack.key attempt reason]
    | .success => [.commandRetried ack.key attempt ""]
  | .failed report => [.commandFailed report.key report.attempts report.reason]
  | .settled => []
  | .stale => []

end Session

namespace Call

/-- Takes the events of a lattice into account until no more come, which is fatal. -/
def ingestStream (events : List LatticeEvent) : Call Unit := do
  modify fun session => (session.ingestAll events).1.reportFatal Session.streamEnd
  throw (.unhealthy Session.streamEnd)

/-- Takes an acknowledgement; the actor of a command that has succeeded looks again. -/
def acknowledge (ack : CommandAck) : Call AckOutcome := do
  let session ← get
  let engine := session.engine
  let origin := (engine.dispatcher.command? ack.handle).map fun command =>
    ActorKey.mk command.lattice command.app
  match engine.dispatcher.onAck session.now ack with
  | (_, .error problem) => throw (.dispatch problem)
  | (dispatcher, .ok outcome) =>
    let engine := { engine with dispatcher := dispatcher }
    let session :=
      ({ session with engine := engine } : Session).publishAll (Session.ackEvents ack outcome)
    match outcome, origin with
    | .settled, some key =>
      set { session with engine := session.engine.nudge key .observed }
    | _, _ => set session
    return outcome

end Call

end Reconciler
