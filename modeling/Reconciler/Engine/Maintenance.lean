import Reconciler.Engine.Upkeep

/-!
# Moves of maintenance loops

A maintenance loop has three duties, each due at intervals of its own. A loop that comes late to a
duty does it once, and goes on in the old rhythm. A duty that gives no answer takes the loop with
it.
-/

namespace Reconciler

namespace Timers

/-- How much later than due a duty may begin without counting as missed, in milliseconds. -/
def grace : Nat :=
  5

/-- When a duty is due next that was due at a time and has begun now. -/
def next (due period now : Nat) : Nat :=
  if due + grace < now then now + period - (now - due) % period else due + period

/-- The time at which the next duty is due. -/
def earliest (timers : Timers) : Nat :=
  min timers.commands (min timers.hosts timers.resync)

/-- All duties are due at a time. -/
def allAt (time : Nat) : Timers :=
  ⟨time, time, time⟩

end Timers

namespace MaintenanceLoop

/-- Whether a loop has something to do apart from its chores. -/
def isDue (loop : MaintenanceLoop) (now : Nat) : Bool :=
  loop.isEnding || loop.timers.all fun timers => timers.earliest ≤ now

/-- The time that a loop waits for, if it waits for one. -/
def deadline? (loop : MaintenanceLoop) : Option Nat :=
  match loop.chores with
  | .rest time :: _ => some time
  | _ :: _ => none
  | [] => loop.timers.map Timers.earliest

end MaintenanceLoop

namespace Session

/-- Whether there is something for a loop to do. -/
def canMoveLoop (session : Session) (loop : MaintenanceLoop) : Bool :=
  match loop.chores with
  | chore :: _ => session.canDo chore
  | [] => loop.isDue session.now.elapsed

/-- The session with a loop as it is after a move. -/
def putLoop (session : Session) (loop : MaintenanceLoop) : Session :=
  { session with engine := session.engine.updateLoop loop.number fun _ => loop }

/-- The session after a loop has ended. -/
def endLoop (session : Session) (loop : MaintenanceLoop) : Session :=
  { session with engine := session.engine.removeLoop loop.number }

/-- The session after a loop has begun a call; what goes wrong is left to the next time. -/
def undertake (session : Session) (loop : MaintenanceLoop) (call : Call (Pending Unit)) :
    Session :=
  let (result, session) := call.run session
  match result with
  | .ok pending => session.putLoop { loop with chores := pending.chores }
  | .error _ => session.putLoop loop

/-- The session after a loop has done a chore; if that goes wrong, the others are dropped. -/
def moveOn (session : Session) (loop : MaintenanceLoop) (chore : Chore) (chores : List Chore) :
    Session :=
  let (session, result) := session.perform chore
  match result with
  | .ok more => session.putLoop { loop with chores := more ++ chores }
  | .error _ => session.putLoop { loop with chores := [] }

/-- The session after a loop has begun the next duty that is due, if one is, or has ended. -/
def beginDuty (session : Session) (loop : MaintenanceLoop) (timers : Timers) : Session :=
  let now := session.now.elapsed
  let config := session.engine.config
  let wait (timers : Timers) : MaintenanceLoop := { loop with timers := some timers }
  if timers.commands ≤ now then
    let next := Timers.next timers.commands config.dispatch.reapInterval now
    session.undertake (wait { timers with commands := next }) .reapCommands
  else if timers.hosts ≤ now then
    let next := Timers.next timers.hosts (config.projector.hostSeconds * 1000) now
    match session.reapHosts session.now.wall with
    | (session, some _) => session.putLoop (wait { timers with hosts := next })
    | (session, none) => session.endLoop loop
  else if timers.resync ≤ now then
    let next := Timers.next timers.resync (config.reconcile.resyncSeconds * 1000) now
    session.undertake (wait { timers with resync := next }) .resync
  else if loop.isEnding then session.endLoop loop
  else session

/-- The session after a loop has moved, if it can. -/
def moveLoop (session : Session) (loop : MaintenanceLoop) : Session :=
  match loop.chores, loop.timers with
  | chore :: chores, _ =>
    if session.canDo chore then session.moveOn loop chore chores else session
  | [], none => session.putLoop { loop with timers := some (.allAt session.now.elapsed) }
  | [], some timers => session.beginDuty loop timers

end Session

end Reconciler
