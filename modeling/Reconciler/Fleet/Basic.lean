import Reconciler.Engine.Cycle
import Reconciler.Engine.Maintenance

/-!
# Fleets

A fleet is engines that run side by side under one clock. Most of them share a backend; an engine
may have one to itself. The actors and loops of all engines are the tasks of the fleet. A task that
can move is ready, and ready tasks take turns in the order in which they became ready.
-/

namespace Reconciler

/-- An engine of a fleet, and the backend that it has to itself, if it has one. -/
structure Member where
  engine : Engine
  own : Option Backend
deriving DecidableEq, Inhabited

/-- An actor or a loop of a member of a fleet, by their numbers. -/
inductive Task where
  | actor (member number : Nat)
  | loop (member number : Nat)
deriving DecidableEq, Inhabited, Repr

/-- Engines that run side by side. -/
structure Fleet where
  now : Moment
  /-- What the engines work on that have nothing to themselves. -/
  shared : Backend
  members : List Member
  /-- The tasks that can move, the one that became ready first at the front. -/
  ready : List Task
deriving DecidableEq, Inhabited

namespace Fleet

/-- A fleet that has not begun. -/
def new (now : Moment) (members : List Member) : Fleet :=
  ⟨now, .new .new, members, []⟩

/-- The engine of a member. -/
def engine? (fleet : Fleet) (index : Nat) : Option Engine :=
  (fleet.members[index]?).map Member.engine

/-- A member at work. -/
def session? (fleet : Fleet) (index : Nat) : Option Session :=
  (fleet.members[index]?).map fun member =>
    ⟨fleet.now, member.own.getD fleet.shared, member.engine⟩

/-- The fleet after the work of a member. -/
def putSession (fleet : Fleet) (index : Nat) (session : Session) : Fleet :=
  match fleet.members[index]? with
  | none => fleet
  | some ⟨_, some _⟩ =>
    { fleet with members := fleet.members.set index ⟨session.engine, some session.backend⟩ }
  | some ⟨_, none⟩ =>
    { fleet with
      shared := session.backend
      members := fleet.members.set index ⟨session.engine, none⟩ }

/-- The fleet with an engine changed. -/
def updateEngine (fleet : Fleet) (index : Nat) (update : Engine → Engine) : Fleet :=
  { fleet with
    members := fleet.members.modify index fun member =>
      { member with engine := update member.engine } }

/-- The tasks of a member that can move. -/
def movableOf (fleet : Fleet) (index : Nat) : List Task :=
  match fleet.session? index with
  | none => []
  | some session =>
    let engine := session.engine
    let loops := engine.loops.filter session.canMoveLoop
    let actors := engine.actors.filter fun actor => actor.canMove fleet.now.elapsed
    loops.map (fun loop => .loop index loop.number) ++
      actors.map fun actor => .actor index actor.number

/-- The tasks that can move. -/
def movable (fleet : Fleet) : List Task :=
  (List.range fleet.members.length).flatMap fleet.movableOf

/-- The fleet with every task that can move among the ready ones. -/
def rouse (fleet : Fleet) : Fleet :=
  { fleet with
    ready := fleet.ready ++ fleet.movable.filter fun task => !fleet.ready.contains task }

/-- The fleet after a task has moved. -/
def moveTask (fleet : Fleet) : Task → Fleet
  | .actor index number =>
    match fleet.session? index with
    | none => fleet
    | some session =>
      match session.engine.actor? number with
      | none => fleet
      | some actor => fleet.putSession index (session.moveActor actor)
  | .loop index number =>
    match fleet.session? index with
    | none => fleet
    | some session =>
      match session.engine.loop? number with
      | none => fleet
      | some loop => fleet.putSession index (session.moveLoop loop)

/-- The times that the tasks of a member wait for. -/
def deadlinesOf (member : Member) : List Nat :=
  member.engine.actors.filterMap Actor.deadline? ++
    member.engine.loops.filterMap MaintenanceLoop.deadline?

/-- The times that tasks wait for. -/
def deadlines (fleet : Fleet) : List Nat :=
  fleet.members.flatMap deadlinesOf

/-- The fleet at a later time, with the tasks ready that can move then. -/
def advanceTo (fleet : Fleet) (time : Nat) : Fleet :=
  let wall := fleet.now.wall.addMillis (time - fleet.now.elapsed)
  ({ fleet with now := ⟨time, wall⟩ } : Fleet).rouse

end Fleet

end Reconciler
