import Reconciler.Fleet.Basic

/-!
# Scheduling

Somebody who asks a member for something has the first turn, and keeps it until a chore has to wait.
Only then the tasks have their turns, until none of them can move; then it is the caller's turn
again, if the chore can be done by now, and otherwise the clock moves on to the next time that
somebody waits for. Between two calls no task moves.
-/

namespace Reconciler

/-- Whose turn it is. -/
inductive Turn where
  | caller
  | tasks
deriving DecidableEq, Inhabited, Repr

namespace Fleet

/-- The time that a caller waits for, if it waits for one. -/
def restTime? : Chore → Option Nat
  | .rest time => some time
  | _ => none

/-- The next time that the caller or a task waits for. -/
def nextTime? (fleet : Fleet) (chore : Chore) : Option Nat :=
  ((restTime? chore).toList ++ fleet.deadlines).min?

/-- Whether a member can do a chore now. -/
def canDo (fleet : Fleet) (index : Nat) (chore : Chore) : Bool :=
  (fleet.session? index).all fun session => session.canDo chore

/-- The fleet after a member has done a chore, and what comes in the place of the chore. -/
def perform (fleet : Fleet) (index : Nat) (chore : Chore) :
    Fleet × Except ControlError (List Chore) :=
  match fleet.session? index with
  | none => (fleet, .ok [])
  | some session =>
    let (session, result) := session.perform chore
    ((fleet.putSession index session).rouse, result)

/-- The fleet after the first of the ready tasks has had its turn. -/
def takeTurn (fleet : Fleet) : Fleet :=
  match fleet.ready with
  | [] => fleet
  | task :: ready =>
    if fleet.movable.contains task then (fleet.moveTask task).rouse
    else { fleet with ready := ready }

/--
Has a member do chores, with at most a number of moves. There is no answer if the moves run out or
if everybody waits for somebody else.
-/
def complete (fleet : Fleet) (index : Nat) (turn : Turn) :
    Nat → List Chore → Fleet × Option (Except ControlError Unit)
  | _, [] => (fleet, some (.ok ()))
  | 0, _ => (fleet, none)
  | moves + 1, chore :: chores =>
    match turn, fleet.ready with
    | .caller, _ =>
      if fleet.canDo index chore then
        match fleet.perform index chore with
        | (fleet, .ok more) => fleet.complete index .caller moves (more ++ chores)
        | (fleet, .error problem) => (fleet, some (.error problem))
      else fleet.complete index .tasks moves (chore :: chores)
    | .tasks, _ :: _ => fleet.takeTurn.complete index .tasks moves (chore :: chores)
    | .tasks, [] =>
      if fleet.canDo index chore then fleet.complete index .caller moves (chore :: chores)
      else
        match fleet.nextTime? chore with
        | some time => (fleet.advanceTo time).complete index .caller moves (chore :: chores)
        | none => (fleet, none)

/-- Has a member answer a call that need not wait for anything. -/
def ask {α : Type} (fleet : Fleet) (index : Nat) (call : Call α) :
    Fleet × Option (Except ControlError α) :=
  match fleet.session? index with
  | none => (fleet, none)
  | some session =>
    let (answer, session) := call.run session
    ((fleet.putSession index session).rouse, some answer)

/-- Has a member answer a call, with at most a number of moves. -/
def request {α : Type} (fleet : Fleet) (moves index : Nat) (call : Call (Pending α)) :
    Fleet × Option (Except ControlError α) :=
  match fleet.ask index call with
  | (fleet, some (.ok pending)) =>
    let (fleet, completed) := fleet.complete index .caller moves pending.chores
    (fleet, completed.map fun completed => completed.map fun _ => pending.answer)
  | (fleet, some (.error problem)) => (fleet, some (.error problem))
  | (fleet, none) => (fleet, none)

/-- Lets a number of milliseconds pass, with at most a number of moves. -/
def sleep (fleet : Fleet) (moves millis : Nat) : Fleet :=
  (fleet.complete 0 .caller moves [.rest (fleet.now.elapsed + millis)]).1

end Fleet

end Reconciler
