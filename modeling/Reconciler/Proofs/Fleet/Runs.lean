import Reconciler.Engine.Operations
import Reconciler.Fleet.Basic

/-!
# Runs of fleets

The acts of a run come in any order: somebody asks a member for something, a member goes on with
what it was asked for before, an actor or a loop moves, a transport or a store changes its
behaviour, or time passes. `Fleet.complete` takes acts in one order, which depends on who waits for
whom; what is shown for all runs holds for that order too.
-/

namespace Reconciler

/-- What may be asked of an engine. -/
inductive Request where
  | submit (manifest : Manifest)
  | rollback (app : AppName) (version : String)
  | prune (app : AppName) (keep : Nat)
  | deploy (app : AppName) (version : Option String) (lattice : LatticeId)
  | undeploy (app : AppName) (mode : UndeployMode)
  | deleteApplication (app : AppName)
  | listApplications
  | listVersions (app : AppName)
  | status (app : AppName)
  | ingest (event : LatticeEvent)
  | ingestStream (events : List LatticeEvent)
  | acknowledge (ack : CommandAck)
  | reportFatal (reason : String)
  | recover
  | setPartition (partition : Partition)
  | assign (app : AppName)
  | revoke (app : AppName)
  | rebalance
  | reapCommands
  | reapHosts (time : Timestamp)
  | resync
  | start
  | shutdown
deriving DecidableEq

/-- A call that changes the session and always succeeds. -/
def Call.alter (change : Session → Session) : Call Unit :=
  modify change

/-- A call of which nothing is left to do. -/
def Call.outright {α : Type} (call : Call α) : Call (List Chore) := do
  let _ ← call
  return []

/-- The call that a request stands for; its answer is what is left to do. -/
def Request.call : Request → Call (List Chore)
  | submit manifest => do return (← Call.submit manifest).chores
  | rollback app version => do return (← Call.rollback app version).chores
  | prune app keep => (Call.prune app keep).outright
  | deploy app version lattice => do return (← Call.deploy app version lattice).chores
  | undeploy app mode => do return (← Call.undeploy app mode).chores
  | deleteApplication app => do return (← Call.deleteApplication app).chores
  | listApplications => Call.listApplications.outright
  | listVersions app => (Call.listVersions app).outright
  | status app => (Call.status app).outright
  | ingest event => (Call.alter fun session => (session.ingest event).1).outright
  | ingestStream events => (Call.ingestStream events).outright
  | acknowledge ack => (Call.acknowledge ack).outright
  | reportFatal reason => (Call.alter fun session => session.reportFatal reason).outright
  | recover => (Call.alter Session.recover).outright
  | setPartition partition => do return (← Call.setPartition partition).chores
  | assign app => (Call.alter fun session => (session.assign app).1).outright
  | revoke app => (Call.alter fun session => (session.revoke app).1).outright
  | rebalance => do return (← Call.rebalance).chores
  | reapCommands => do return (← Call.reapCommands).chores
  | reapHosts time => (Call.alter fun session => (session.reapHosts time).1).outright
  | resync => do return (← Call.resync).chores
  | start => do return (← Call.start).chores
  | shutdown => do return (← Call.shutdown).chores

/-- What a member does in one go, or what happens to it. -/
inductive Deed where
  | answer (request : Request)
  | perform (chore : Chore)
  | moveActor (number : Nat)
  | moveLoop (number : Nat)
  /-- The transport begins to answer otherwise, or after another time. -/
  | turnSink (failure : SendResult) (delay : Nat)
  /-- The store goes out of reach, or comes back. -/
  | turnStore (outage : Option Outage)
deriving DecidableEq

namespace Session

/-- The session after a deed, and what is left to do because of it, unless it has failed. -/
def afterDeed (session : Session) : Deed → Session × Except ControlError (List Chore)
  | .answer request =>
    let (result, session) := request.call.run session
    (session, result)
  | .perform chore => if session.canDo chore then session.perform chore else (session, .ok [chore])
  | .moveActor number =>
    match session.engine.actor? number with
    | some actor => (session.moveActor actor, .ok [])
    | none => (session, .ok [])
  | .moveLoop number =>
    match session.engine.loop? number with
    | some loop => (session.moveLoop loop, .ok [])
    | none => (session, .ok [])
  | .turnSink failure delay =>
    let sink := { session.engine.sink with failure := failure, delay := delay }
    ({ session with engine := { session.engine with sink := sink } }, .ok [])
  | .turnStore outage =>
    ({ session with backend := { session.backend with outage := outage } }, .ok [])

end Session

/-- Something that a member was asked for, and what is left to do of it. -/
structure Errand where
  member : Nat
  chores : List Chore
deriving DecidableEq, Inhabited

/-- The errand after its first chore, of which others may come; if it fails, nothing is left. -/
def Errand.goOn (errand : Errand) : Except ControlError (List Chore) → Errand
  | .ok chores => { errand with chores := chores ++ errand.chores.tail }
  | .error _ => { errand with chores := [] }

/-- A fleet, and what its members were asked for and have not finished. -/
structure World where
  fleet : Fleet
  errands : List Errand
deriving DecidableEq, Inhabited

/-- What happens in a run. -/
inductive Act where
  | ask (member : Nat) (request : Request)
  /-- A member goes on with an errand. -/
  | carryOn (errand : Nat)
  | moveActor (member number : Nat)
  | moveLoop (member number : Nat)
  | turnSink (member : Nat) (failure : SendResult) (delay : Nat)
  | turnStore (member : Nat) (outage : Option Outage)
  /-- Time passes; the time of day may be set at will. -/
  | wait (millis : Nat) (wall : Timestamp)
deriving DecidableEq

namespace World

/-- The member that an act is about, and its deed. -/
def deed? (world : World) : Act → Option (Nat × Deed)
  | .ask member request => some (member, .answer request)
  | .carryOn errand =>
    match world.errands[errand]? with
    | some ⟨member, chore :: _⟩ => some (member, .perform chore)
    | _ => none
  | .moveActor member number => some (member, .moveActor number)
  | .moveLoop member number => some (member, .moveLoop number)
  | .turnSink member failure delay => some (member, .turnSink failure delay)
  | .turnStore member outage => some (member, .turnStore outage)
  | .wait .. => none

/-- The errands after an act, going by what has come of its deed. -/
def errandsAfter (world : World) (result : Except ControlError (List Chore)) : Act → List Errand
  | .ask member _ => world.errands ++ [⟨member, result.toOption.getD []⟩]
  | .carryOn errand => world.errands.modify errand fun errand => errand.goOn result
  | _ => world.errands

/-- The time after an act. -/
def nowAfter (world : World) : Act → Moment
  | .wait millis wall => ⟨world.fleet.now.elapsed + millis, wall⟩
  | _ => world.fleet.now

/-- The world after an act. -/
def after (world : World) (act : Act) : World :=
  match world.deed? act with
  | none => { world with fleet := { world.fleet with now := world.nowAfter act } }
  | some (member, deed) =>
    match world.fleet.session? member with
    | none => world
    | some session =>
      let (session, result) := session.afterDeed deed
      ⟨world.fleet.putSession member session, world.errandsAfter result act⟩

/-- The world after some acts. -/
def afterAll (world : World) (acts : List Act) : World :=
  acts.foldl after world

/-- A world of members that share a backend in which nothing has happened yet either. -/
def new (now : Moment) (members : List Member) : World :=
  ⟨.new now members, []⟩

/-- A world in which nothing has happened yet, whatever the store and the lattices are like. -/
structure IsFresh (world : World) : Prop where
  isNew : ∀ member ∈ world.fleet.members, ∃ source config sink assignment partition,
    member.engine = .new source config sink assignment partition
  idle : world.errands = []

end World

end Reconciler
