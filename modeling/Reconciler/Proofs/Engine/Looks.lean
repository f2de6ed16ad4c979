import Reconciler.Proofs.Engine.Paces

/-!
# What looks come to

An actor that looks at its application finds out what is missing in the lattice as it is then, and
goes through one cycle for it. The cycle shows at the actor: while it is under way, the actor waits
for the transport; when it is over, the status counts it, and tells how many actions were missing.
-/

namespace Reconciler

namespace Actor

/-- How a cycle with an outcome shows at an actor that has counted some cycles before. -/
inductive ShowsCycle (actor : Actor) (before : UInt64) :
    Except StoreError (List RequiredAction) → Prop
  /-- The transport takes its time for one of the actions. -/
  | underWay {actions : List RequiredAction} {cycle : Cycle} {command : Command} {answersAt : Nat}
      (stage : actor.stage = .sending cycle command answersAt)
      (total : cycle.total = actions.length) (cycles : actor.status.cycles = before) :
      ShowsCycle actor before (.ok actions)
  /-- The cycle is over. -/
  | complete {actions : List RequiredAction} (stage : actor.stage = .receiving)
      (cycles : actor.status.cycles = before + 1)
      (lastActions : actor.status.lastActions = actions.length.toUInt64) :
      ShowsCycle actor before (.ok actions)
  /-- The actor has given the cycle up because of the store. -/
  | givenUp {problem : StoreError} (stage : actor.stage = .receiving)
      (cycles : actor.status.cycles = before) : ShowsCycle actor before (.error problem)

variable {former actor : Actor} {before : UInt64} {actions : List RequiredAction}
  {outcome : Except StoreError (List RequiredAction)}

/-- A cycle shows at an actor for as long as the actor counts the same and is at the same work. -/
theorem ShowsCycle.of_same (shows : former.ShowsCycle before outcome)
    (stage : actor.stage = former.stage) (cycles : actor.status.cycles = former.status.cycles)
    (lastActions : actor.status.lastActions = former.status.lastActions) :
    actor.ShowsCycle before outcome := by
  cases shows with
  | underWay sending total same => exact .underWay (stage.trans sending) total (cycles.trans same)
  | complete receiving counted told =>
      exact .complete (stage.trans receiving) (cycles.trans counted) (lastActions.trans told)
  | givenUp receiving same => exact .givenUp (stage.trans receiving) (cycles.trans same)

end Actor

namespace Session

/-- What an actor finds to be missing when it looks at its application. -/
inductive Finds (session : Session) (actor : Actor) :
    Except StoreError (List RequiredAction) → Prop
  /-- The current manifest asks for it in the lattice as it is. -/
  | converging {manifest : Manifest} (intent : actor.intent = .converge)
      (current : session.backend.getCurrent actor.key.app = .ok manifest) :
      Finds session actor
        (.ok (evaluate manifest (session.backend.snapshot actor.key.lattice)))
  /-- No manifest asks for anything. -/
  | unspecified {app : AppName} (intent : actor.intent = .converge)
      (unknown : session.backend.getCurrent actor.key.app = .error (.notFound app)) :
      Finds session actor (.ok [])
  /-- The store does not say what the manifest is. -/
  | failing {problem : StoreError} (intent : actor.intent = .converge)
      (fails : session.backend.getCurrent actor.key.app = .error problem)
      (other : ∀ app, problem ≠ .notFound app) : Finds session actor (.error problem)
  /-- The application is to be gone from the lattice as it is. -/
  | tearing {mode : UndeployMode} (intent : actor.intent = .teardown mode) :
      Finds session actor
        (.ok (evaluateTeardown actor.key.app (session.backend.snapshot actor.key.lattice)))

/-- The cycle of an actor that has looked at its application. -/
def cycle (session : Session) (actor : Actor) :
    Except StoreError (List RequiredAction) → Acting
  | .ok actions => session.dispatchAll actor.dispatching actions.length 0 actions
  | .error problem => session.failCycle actor problem

variable {session : Session} {actor : Actor} {before : UInt64} {actions : List RequiredAction}
  {outcome : Except StoreError (List RequiredAction)}

theorem finds_missing (awake : actor.intent ≠ .dormant) :
    session.Finds actor (session.missing actor) := by
  rw [missing]
  cases intent : actor.intent with
  | dormant => exact absurd intent awake
  | teardown mode => exact .tearing intent
  | converge =>
      simp only
      cases current : session.backend.getCurrent actor.key.app with
      | ok manifest => exact .converging intent current
      | error problem =>
          cases problem with
          | notFound app => exact .unspecified intent current
          | _ => exact .failing intent current fun _ same => by cases same

theorem beginCycle_of_mayLook (allowed : session.mayLook actor = true) :
    session.beginCycle actor = session.cycle actor (session.missing actor) := by
  rw [beginCycle, if_pos allowed]
  cases session.missing actor with
  | ok actions => rfl
  | error problem => rfl

/-- An actor that may look begins a cycle for what it finds. -/
theorem exists_finds (allowed : session.mayLook actor = true) :
    ∃ outcome, session.Finds actor outcome ∧
      session.beginCycle actor = session.cycle actor outcome := by
  refine ⟨session.missing actor, finds_missing fun dormant => ?_, beginCycle_of_mayLook allowed⟩
  rw [mayLook, dormant] at allowed
  cases allowed

theorem showsCycle_finishTeardown (shows : actor.ShowsCycle before outcome)
    (receiving : actor.stage = .receiving) (mode : UndeployMode) :
    (session.finishTeardown actor mode).2.ShowsCycle before outcome := by
  cases mode with
  | force => exact shows.of_same rfl rfl rfl
  | graceful =>
      rw [finishTeardown]
      cases session.deleteRemoved actor.key with
      | ok next => exact shows.of_same rfl rfl rfl
      | error problem => exact shows.of_same receiving.symm rfl rfl

/-- At the end of a cycle, the status counts it. -/
theorem showsCycle_finishCycle (session : Session) (actor : Actor) {cycle : Cycle}
    (total : cycle.total = actions.length) :
    (session.finishCycle actor cycle).2.ShowsCycle actor.status.cycles (.ok actions) := by
  have counted : ({ actor with
      stage := .receiving
      status := actor.status.afterCycle session.now.wall cycle.total } : Actor).ShowsCycle
      actor.status.cycles (.ok actions) :=
    .complete rfl rfl (congrArg Nat.toUInt64 total)
  rw [finishCycle]
  simp only
  split
  · split
    · exact showsCycle_finishTeardown counted rfl _
    · exact counted
  · exact counted

theorem showsCycle_dispatchAll (session : Session) (actor : Actor) {total : Nat}
    (all : total = actions.length) (sent : Nat) (remaining : List RequiredAction) :
    (session.dispatchAll actor total sent remaining).2.ShowsCycle actor.status.cycles
      (.ok actions) := by
  have dispatching := session.dispatching_dispatchAll actor total sent remaining
  generalize session.dispatchAll actor total sent remaining = result at dispatching
  cases dispatching with
  | @finishes next _ _ sent => exact next.showsCycle_finishCycle actor all
  | stays => exact .underWay rfl all rfl

/-- A cycle shows at the actor from its beginning. -/
theorem showsCycle_cycle (session : Session) (actor : Actor)
    (outcome : Except StoreError (List RequiredAction)) :
    (session.cycle actor outcome).2.ShowsCycle actor.status.cycles outcome := by
  cases outcome with
  | ok actions => exact session.showsCycle_dispatchAll actor.dispatching rfl 0 actions
  | error problem => exact .givenUp rfl rfl

/-- A cycle shows at the actor until its end. -/
theorem showsCycle_resumeCycle {cycle : Cycle} {command : Command} {answersAt : Nat}
    (shows : actor.ShowsCycle before outcome)
    (sending : actor.stage = .sending cycle command answersAt) :
    (session.resumeCycle actor cycle command).2.ShowsCycle before outcome := by
  cases shows with
  | complete receiving => cases receiving.symm.trans sending
  | givenUp receiving => cases receiving.symm.trans sending
  | underWay stage total cycles =>
      obtain ⟨rfl, _, _⟩ := Stage.sending.inj (stage.symm.trans sending)
      subst cycles
      rw [resumeCycle]
      rcases session.transmit command with ⟨next, problem | answer⟩
      · exact showsCycle_finishCycle _ actor total
      · exact next.showsCycle_dispatchAll actor total _ _

end Session

end Reconciler
