/-!
# Triggers and intents

A trigger wakes the actor of an application. What an actor works towards is its intent; operators
change it by the triggers that they cause.
-/

namespace Reconciler

/-- How an application is removed from its lattice. -/
inductive UndeployMode where
  /-- It is torn down first, and deleted once nothing of it is left. -/
  | graceful
  /-- It is deleted at once, and torn down afterwards. -/
  | force
deriving DecidableEq, Inhabited, Repr

/-- What wakes an actor. -/
inductive Trigger where
  | deploy
  | rollback
  | undeploy (mode : UndeployMode)
  /-- Something has changed in the lattice. -/
  | observed
  /-- It is time to look again, whether anything has changed or not. -/
  | resync
  /-- The actor is to end. -/
  | shutdown
deriving DecidableEq, Inhabited, Repr

/-- Whether a trigger can wait for others to come. -/
def Trigger.isBackground : Trigger → Bool
  | observed => true
  | resync => true
  | _ => false

/-- What an actor works towards. -/
inductive Intent where
  /-- The lattice has what the manifest says. -/
  | converge
  /-- The lattice has nothing of the application. -/
  | teardown (mode : UndeployMode)
  /-- Nothing, until the application is deployed again. -/
  | dormant
deriving DecidableEq, Inhabited, Repr

/-- The intent after a trigger; a forced teardown stays forced. -/
def Intent.after (intent : Intent) : Trigger → Intent
  | .deploy => converge
  | .rollback => converge
  | .undeploy mode => if intent = teardown .force then intent else teardown mode
  | .observed => intent
  | .resync => intent
  | .shutdown => intent

end Reconciler
