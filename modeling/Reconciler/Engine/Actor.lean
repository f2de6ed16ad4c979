import Reconciler.Dispatch.Command
import Reconciler.Engine.Progress
import Reconciler.Engine.Trigger

/-!
# Actors

Every deployed application has an actor, which alone works on it. Triggers wait in the actor's queue
until it takes them. After a change of the lattice it waits a while for more of them, so that a
burst of changes costs one look; triggers of operators do not wait.
-/

namespace Reconciler

/-- What an actor works on: an application in a lattice. -/
structure ActorKey where
  lattice : LatticeId
  app : AppName
deriving DecidableEq, Inhabited, Repr

namespace ActorKey

/-- What orders actors: the lattice first, then the application. -/
def rank (key : ActorKey) : List String :=
  [key.lattice.text, key.app.text]

instance : Ord ActorKey :=
  rankOrd rank

instance : Std.TransOrd ActorKey :=
  transOrd_rankOrd rank

instance : Std.LawfulEqOrd ActorKey :=
  lawfulEqOrd_rankOrd rank fun first second same => by
    rcases first with ⟨⟨_⟩, ⟨_⟩⟩
    rcases second with ⟨⟨_⟩, ⟨_⟩⟩
    simp_all [rank]

end ActorKey

/-- A look at an application whose actions are being dispatched. -/
structure Cycle where
  /-- The number of actions that were found to be missing. -/
  total : Nat
  /-- The number of them that have become commands so far. -/
  sent : Nat
  remaining : List RequiredAction
deriving DecidableEq, Inhabited

/-- Where an actor is in its work. -/
inductive Stage where
  /-- It waits for a trigger. -/
  | receiving
  /-- It waits for more triggers until a time. -/
  | debouncing (deadline : Nat)
  /-- It waits for the transport, which answers for a command at a time. -/
  | sending (cycle : Cycle) (command : Command) (answersAt : Nat)
deriving DecidableEq, Inhabited

/-- The actor of an application in a lattice. -/
structure Actor where
  /-- What tells an actor from earlier and later ones of its engine. -/
  number : Nat
  key : ActorKey
  intent : Intent
  /-- Whether the actor ends as soon as it has finished what it is doing. -/
  isEnding : Bool
  /-- The triggers that wait for the actor, the oldest first. -/
  queue : List Trigger
  /-- The number of callers that wait for room in the queue. -/
  callers : Nat
  stage : Stage
  status : ActorStatus
deriving DecidableEq, Inhabited

namespace Actor

/-- An actor that has not been woken yet. -/
def new (number : Nat) (key : ActorKey) (intent : Intent) : Actor where
  number := number
  key := key
  intent := intent
  isEnding := false
  queue := []
  callers := 0
  stage := .receiving
  status := .initial

/-- Whether a queue of some capacity has a free place for somebody who does not wait for one. -/
def hasRoom (actor : Actor) (capacity : Nat) : Bool :=
  actor.queue.length + actor.callers < capacity

/-- Whether a queue of some capacity has a free place for a caller who waits for one. -/
def hasPlace (actor : Actor) (capacity : Nat) : Bool :=
  actor.queue.length < capacity

/-- The actor with one more trigger in its queue. -/
def push (actor : Actor) (trigger : Trigger) : Actor :=
  { actor with queue := actor.queue ++ [trigger] }

/-- The actor with a trigger in its queue unless that is full; a full queue wakes it anyway. -/
def nudge (actor : Actor) (capacity : Nat) (trigger : Trigger) : Actor :=
  if actor.hasRoom capacity then actor.push trigger else actor

/-- The actor after it has taken a trigger to heart. -/
def absorb (actor : Actor) (trigger : Trigger) : Actor :=
  let intent := actor.intent.after trigger
  { actor with
    intent := intent
    isEnding := actor.isEnding || trigger == .shutdown
    status :=
      if actor.intent = .dormant ∧ intent ≠ .dormant then
        { actor.status with dormant := false }
      else actor.status }

/-- The actor after it has taken some of the triggers in its queue, the oldest first. -/
def drain (actor : Actor) (limit : Nat) : Actor :=
  (actor.queue.take limit).foldl absorb { actor with queue := actor.queue.drop limit }

/-- Whether there is something for the actor to do at a time. -/
def canMove (actor : Actor) (now : Nat) : Bool :=
  match actor.stage with
  | .receiving => !actor.queue.isEmpty
  | .debouncing deadline => deadline ≤ now || !actor.queue.isEmpty
  | .sending _ _ answersAt => answersAt ≤ now

/-- The time that the actor waits for, if it waits for one. -/
def deadline? (actor : Actor) : Option Nat :=
  match actor.stage with
  | .receiving => none
  | .debouncing deadline => some deadline
  | .sending _ _ answersAt => some answersAt

end Actor

end Reconciler
