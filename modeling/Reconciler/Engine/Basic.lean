import Reconciler.Config.Basic
import Reconciler.Control.EventAggregator
import Reconciler.Dispatch.Sweep
import Reconciler.Engine.Actor
import Reconciler.Engine.Error
import Reconciler.Engine.Health
import Reconciler.Store.Backend

/-!
# Engines

An engine keeps lattices as manifests ask for. It has an actor for every deployed application that
is its own, a dispatcher for their commands, and loops that look after both from time to time.

Part of what an engine does takes its time: a queue may be full, an actor may still be busy, the
transport may be slow. Such work is a list of chores, done one after the other, each as soon as it
can be done.
-/

namespace Reconciler

/-- A transport that keeps the commands it takes. -/
structure Sink where
  /-- What the transport answers to every command. -/
  failure : SendResult
  /-- How long the transport takes to answer, in milliseconds. -/
  delay : Nat
  /-- The commands taken, the latest first. -/
  taken : List Command
deriving DecidableEq, Inhabited

namespace Sink

/-- A transport that takes every command at once. -/
def new : Sink :=
  ⟨none, 0, []⟩

/-- What the transport answers to a command; a command that fails is not kept. -/
def offer (sink : Sink) (command : Command) : Sink × SendResult :=
  match sink.failure with
  | none => ({ sink with taken := command :: sink.taken }, none)
  | some problem => (sink, some problem)

end Sink

/-- A piece of work that has to wait for its turn. -/
inductive Chore where
  /-- Puts a trigger into the queue of an actor, where one may have to wait for room. -/
  | deliver (actor : Nat) (trigger : Trigger) (isWaiting : Bool)
  /-- Waits until an actor has ended. -/
  | awaitEnd (actor : Nat)
  /-- Takes an actor off the roster and waits until it has ended. -/
  | stop (key : ActorKey)
  /-- Stops every actor of the roster. -/
  | stopAll
  /-- Stops actors of applications that are no longer the engine's own, and announces the change. -/
  | release (keys : List ActorKey) (owned : Nat) (changed : Bool)
  /-- Wakes every actor to look again. -/
  | wakeAll
  /-- Starts a maintenance loop. -/
  | startLoop
  /-- Waits until a maintenance loop has ended. -/
  | awaitLoop (number : Nat)
  /-- Announces an event. -/
  | publish (event : ControlEvent)
  /-- Sends commands again in a sweep that has begun at a moment. -/
  | resend (start : Moment) (report : ReapReport) (keys : List IdempotencyKey)
  /-- Offers a command to the transport that is due in a sweep, and goes on with the sweep. -/
  | offer (start : Moment) (report : ReapReport) (command : Command) (keys : List IdempotencyKey)
  /-- Waits until a time. -/
  | rest (time : Nat)
deriving DecidableEq, Inhabited

/-- When the duties of a maintenance loop are due next, in milliseconds of the run. -/
structure Timers where
  commands : Nat
  hosts : Nat
  resync : Nat
deriving DecidableEq, Inhabited, Repr

/-- A loop that sweeps over the commands, takes silent hosts for stopped, and wakes all actors. -/
structure MaintenanceLoop where
  /-- What tells a loop from earlier and later ones of its engine. -/
  number : Nat
  /-- When its duties are due next, once it has begun. -/
  timers : Option Timers
  /-- What is left to do of the duty that it is at. -/
  chores : List Chore
  /-- Whether the loop ends as soon as it has finished what it is doing. -/
  isEnding : Bool
deriving DecidableEq, Inhabited

/-- An engine. -/
structure Engine where
  config : ControlConfig
  /-- The applications that are assigned from outside, if the engine takes assignments. -/
  assignment : Option Assignment
  /-- How the engine knows its own applications; unless there is such a rule, by assignment. -/
  partition : Option Partition
  health : EngineHealth
  dispatcher : Dispatcher
  events : EventAggregator
  sink : Sink
  /-- The actors at work. -/
  roster : SortedMap ActorKey Actor
  /-- Actors off the roster that have not ended yet. -/
  leaving : List Actor
  /-- The number of actors started so far. -/
  actorsStarted : Nat
  loops : List MaintenanceLoop
  /-- The number of loops started so far. -/
  loopsStarted : Nat
  /-- The loop that has to end before the engine shuts down. -/
  maintenance : Option Nat
deriving DecidableEq, Inhabited

namespace Engine

/-- What to say of an engine without a transport. -/
def sinkProblem : String :=
  "a command sink is required"

/-- An engine with nothing to do yet; the source sets its commands apart from those of others. -/
def new (source : Nat) (config : ControlConfig) (sink : Sink) (assignment : Option Assignment)
    (partition : Option Partition) : Engine where
  config := config
  assignment := assignment
  partition := partition
  health := .healthy
  dispatcher := .new config.dispatch.policy source
  events := .new config.engine.instanceId
  sink := sink
  roster := ∅
  leaving := []
  actorsStarted := 0
  loops := []
  loopsStarted := 0
  maintenance := none

/-- The engine that a configuration describes, or one that takes assignments from outside. -/
def build (source : Nat) (config : ControlConfig) (sink : Option Sink)
    (assignment : Option Assignment) : Except ControlError Engine :=
  match sink with
  | none => .error (.config sinkProblem)
  | some sink =>
    match assignment with
    | some assignment => .ok (new source config sink (some assignment) none)
    | none =>
      match config.engine.partition.build config.engine.instanceId with
      | .ok partition => .ok (new source config sink none (some partition))
      | .error problem => .error (.config problem)

/-- The name of an engine. -/
def name (engine : Engine) : String :=
  engine.config.engine.instanceId

/-- Whether an application is the engine's own. -/
def owns (engine : Engine) (app : AppName) : Bool :=
  match engine.partition with
  | some partition => partition.owns app
  | none => engine.assignment.any fun assignment => assignment.owns app

/-- How many triggers may be queued for an application. -/
def capacity (engine : Engine) : Nat :=
  engine.config.reconcile.capacity

/-- The number of actors at work. -/
def actorCount (engine : Engine) : Nat :=
  engine.roster.size

/-- The status of the actor of an application in a lattice. -/
def actorStatus? (engine : Engine) (key : ActorKey) : Option ActorStatus :=
  (engine.roster.find? key).map Actor.status

/-- All actors that have not ended. -/
def actors (engine : Engine) : List Actor :=
  engine.roster.values ++ engine.leaving

/-- The actor with a number, unless it has ended. -/
def actor? (engine : Engine) (number : Nat) : Option Actor :=
  engine.actors.find? fun actor => actor.number == number

/-- The loop with a number, unless it has ended. -/
def loop? (engine : Engine) (number : Nat) : Option MaintenanceLoop :=
  engine.loops.find? fun loop => loop.number == number

/-- The engine with an actor changed, wherever it is. -/
def updateActor (engine : Engine) (number : Nat) (update : Actor → Actor) : Engine :=
  let change (actor : Actor) : Actor := if actor.number = number then update actor else actor
  { engine with
    roster := engine.roster.mapValues fun _ => change
    leaving := engine.leaving.map change }

/-- The engine with a loop changed. -/
def updateLoop (engine : Engine) (number : Nat) (update : MaintenanceLoop → MaintenanceLoop) :
    Engine :=
  { engine with
    loops := engine.loops.map fun loop => if loop.number = number then update loop else loop }

/-- The engine after an actor has ended. -/
def removeActor (engine : Engine) (number : Nat) : Engine :=
  { engine with leaving := engine.leaving.filter fun actor => actor.number != number }

/-- The engine after a loop has ended. -/
def removeLoop (engine : Engine) (number : Nat) : Engine :=
  { engine with loops := engine.loops.filter fun loop => loop.number != number }

/-- The engine with a trigger for the actor of an application, if it has one. -/
def nudge (engine : Engine) (key : ActorKey) (trigger : Trigger) : Engine :=
  { engine with
    roster := engine.roster.adjust key fun actor => actor.nudge engine.capacity trigger }

/-- The engine with a trigger for every actor whose key passes a test. -/
def nudgeAll (engine : Engine) (test : ActorKey → Bool) (trigger : Trigger) : Engine :=
  { engine with
    roster := engine.roster.mapValues fun key actor =>
      if test key then actor.nudge engine.capacity trigger else actor }

/--
The engine with an actor for an application, the number of that actor, and whether it is a new one.
-/
def ensureActor (engine : Engine) (key : ActorKey) (intent : Intent) : Engine × Nat × Bool :=
  match engine.roster.find? key with
  | some actor => (engine, actor.number, false)
  | none =>
    let number := engine.actorsStarted
    ({ engine with
        roster := engine.roster.insert key (.new number key intent)
        actorsStarted := number + 1 },
      number, true)

end Engine

end Reconciler
