import Reconciler.Proofs.Dispatch.Upkeep
import Reconciler.Proofs.Engine.Moves

/-!
# Which commands a cycle offers

A cycle offers new commands for the actions that are missing, one after the other, until the
transport is gone or takes its time. `Session.offersOfActor` lists what a move of an actor offers.
All that it does to the dispatcher are moves of the dispatcher in which just these commands are
offered (`Session.dispatching_dispatchAll`).
-/

namespace Reconciler

namespace Dispatcher

/-- Some moves of a dispatcher lead to another one, and some commands are offered in them. -/
def Leads (dispatcher : Dispatcher) (offered : List Command) (next : Dispatcher) : Prop :=
  ∃ moves, dispatcher.performAll moves = (next, offered)

variable {dispatcher next last : Dispatcher} {first rest : List Command}

theorem Leads.refl (dispatcher : Dispatcher) : dispatcher.Leads [] dispatcher :=
  ⟨[], rfl⟩

theorem leads_perform (dispatcher : Dispatcher) (move : Move) :
    dispatcher.Leads (dispatcher.perform move).2 (dispatcher.perform move).1 :=
  ⟨[move], by simp [performAll]⟩

theorem Leads.trans (leads : dispatcher.Leads first next) (more : next.Leads rest last) :
    dispatcher.Leads (first ++ rest) last := by
  rcases leads with ⟨moves, leads⟩
  rcases more with ⟨others, more⟩
  refine ⟨moves ++ others, ?_⟩
  induction moves generalizing dispatcher first with
  | nil =>
      cases leads
      exact more
  | cons move moves ih =>
      simp only [performAll, Prod.mk.injEq] at leads
      rcases leads with ⟨leads, rfl⟩
      have continued : (dispatcher.perform move).1.performAll (moves ++ others) =
          (last, ((dispatcher.perform move).1.performAll moves).2 ++ rest) :=
        ih (Prod.ext leads rfl)
      simp only [List.cons_append, performAll, continued, List.append_assoc]

/-- Whether no other command stands in the way of an action. -/
def isFree (dispatcher : Dispatcher) (now : Moment) (lattice : LatticeId)
    (action : RequiredAction) : Bool :=
  ((dispatcher.entries.find? (action.idempotencyKey lattice)).bind (obstacle? now action)).isNone

/-- A proposal comes to an offer if nothing stands in the way. -/
theorem propose_of_isFree {now : Moment} {lattice : LatticeId} {action : RequiredAction}
    (free : dispatcher.isFree now lattice action = true) (app : AppName) :
    let command := Command.new dispatcher.nextHandle now.wall lattice app action
    dispatcher.propose now lattice app action = (dispatcher.enter now command, .offer command) := by
  rw [isFree, Option.isNone_iff_eq_none] at free
  rw [propose, free]

/-- Otherwise it leaves everything as it is. -/
theorem propose_of_not_isFree {now : Moment} {lattice : LatticeId} {action : RequiredAction}
    (taken : dispatcher.isFree now lattice action = false) (app : AppName) :
    ∃ handle, dispatcher.propose now lattice app action = (dispatcher, .merge handle) ∨
      dispatcher.propose now lattice app action = (dispatcher, .suppress handle) := by
  rcases dispatcher.propose_cases now lattice app action with ⟨command, _, proposed⟩ | obstructed
  · rw [isFree] at taken
    cases obstacle : (dispatcher.entries.find? (action.idempotencyKey lattice)).bind
        (obstacle? now action) with
    | none => simp [obstacle] at taken
    | some admission =>
        rw [propose, obstacle] at proposed
        simp only [Prod.mk.injEq] at proposed
        have minted := congrArg minted proposed.1
        exact absurd minted (Nat.ne_of_lt (Nat.lt_succ_self _))
  · exact obstructed

end Dispatcher

/-- The parts of an engine that have to do with its tasks and its applications are the same. -/
structure Engine.SameCrew (engine next : Engine) : Prop where
  config : next.config = engine.config
  assignment : next.assignment = engine.assignment
  partition : next.partition = engine.partition
  roster : next.roster = engine.roster
  leaving : next.leaving = engine.leaving
  actorsStarted : next.actorsStarted = engine.actorsStarted
  loops : next.loops = engine.loops
  loopsStarted : next.loopsStarted = engine.loopsStarted
  maintenance : next.maintenance = engine.maintenance

namespace Engine.SameCrew

variable {engine next last : Engine}

theorem refl (engine : Engine) : engine.SameCrew engine :=
  ⟨rfl, rfl, rfl, rfl, rfl, rfl, rfl, rfl, rfl⟩

theorem trans (same : engine.SameCrew next) (more : next.SameCrew last) :
    engine.SameCrew last where
  config := more.config.trans same.config
  assignment := more.assignment.trans same.assignment
  partition := more.partition.trans same.partition
  roster := more.roster.trans same.roster
  leaving := more.leaving.trans same.leaving
  actorsStarted := more.actorsStarted.trans same.actorsStarted
  loops := more.loops.trans same.loops
  loopsStarted := more.loopsStarted.trans same.loopsStarted
  maintenance := more.maintenance.trans same.maintenance

theorem actors (same : engine.SameCrew next) : next.actors = engine.actors := by
  rw [Engine.actors, Engine.actors, same.roster, same.leaving]

end Engine.SameCrew

namespace Session

/-- What becomes of a session while commands are offered: an engine that does not act stays so. -/
structure Dispatches (session : Session) (offered : List Command) (next : Session) : Prop where
  now : next.now = session.now
  backend : next.backend = session.backend
  crew : session.engine.SameCrew next.engine
  stopped : session.engine.health.isHealthy = false → next.engine.health = session.engine.health
  dispatcher : session.engine.dispatcher.Leads offered next.engine.dispatcher

namespace Dispatches

variable {session next last : Session} {first rest : List Command}

theorem refl (session : Session) : session.Dispatches [] session :=
  ⟨rfl, rfl, .refl _, fun _ => rfl, .refl _⟩

theorem trans (dispatches : session.Dispatches first next) (more : next.Dispatches rest last) :
    session.Dispatches (first ++ rest) last where
  now := more.now.trans dispatches.now
  backend := more.backend.trans dispatches.backend
  crew := dispatches.crew.trans more.crew
  stopped stopped := by
    have same := dispatches.stopped stopped
    rw [more.stopped (by rwa [same]), same]
  dispatcher := dispatches.dispatcher.trans more.dispatcher

end Dispatches

variable (session : Session)

theorem dispatches_publish (event : ControlEvent) : session.Dispatches [] (session.publish event) :=
  ⟨rfl, rfl, ⟨rfl, rfl, rfl, rfl, rfl, rfl, rfl, rfl, rfl⟩, fun _ => rfl, .refl _⟩

theorem dispatches_reportFatal (reason : String) :
    session.Dispatches [] (session.reportFatal reason) := by
  rw [reportFatal]
  split
  · exact .refl session
  · rename_i healthy
    refine ⟨rfl, rfl, ⟨rfl, rfl, rfl, rfl, rfl, rfl, rfl, rfl, rfl⟩, ?_, .refl _⟩
    rw [healthy]
    exact fun stopped => Bool.noConfusion stopped

theorem dispatches_noteStoreError (problem : StoreError) :
    session.Dispatches [] (session.noteStoreError problem) := by
  rw [noteStoreError]
  split
  · exact session.dispatches_reportFatal problem.message
  · exact .refl session

theorem dispatches_noteDispatchError (problem : DispatchError) :
    session.Dispatches [] (session.noteDispatchError problem) := by
  rw [noteDispatchError]
  split
  · exact session.dispatches_reportFatal problem.message
  · exact .refl session

/-- The transport answers to a command that was offered before. -/
theorem dispatches_transmit (command : Command) :
    session.Dispatches [] (session.transmit command).1 := by
  refine ⟨rfl, rfl, ⟨rfl, rfl, rfl, rfl, rfl, rfl, rfl, rfl, rfl⟩, fun _ => rfl, ?_⟩
  exact session.engine.dispatcher.leads_perform
    (.conclude session.now command (session.engine.sink.offer command).2)

/-- The session with another dispatcher. -/
def withDispatcher (session : Session) (dispatcher : Dispatcher) : Session :=
  { session with engine := { session.engine with dispatcher := dispatcher } }

theorem dispatches_withDispatcher {dispatcher : Dispatcher} {offered : List Command}
    (leads : session.engine.dispatcher.Leads offered dispatcher) :
    session.Dispatches offered (session.withDispatcher dispatcher) :=
  ⟨rfl, rfl, ⟨rfl, rfl, rfl, rfl, rfl, rfl, rfl, rfl, rfl⟩, fun _ => rfl, leads⟩

/--
The commands that are offered while actions are dispatched for an application one after the other,
as far as the transport answers at once.
-/
def offersOfActions (session : Session) (key : ActorKey) : List RequiredAction → List Command
  | [] => []
  | action :: actions =>
    match session.engine.dispatcher.propose session.now key.lattice key.app action with
    | (dispatcher, .offer command) =>
      if 0 < session.engine.sink.delay then [command]
      else
        match (session.withDispatcher dispatcher).transmit command with
        | (session, .ok _) => command :: session.offersOfActions key actions
        | (_, .error _) => [command]
    | _ => session.offersOfActions key actions

/-- The commands that are offered after the transport has taken its time for one in a cycle. -/
def offersOfRest (session : Session) (key : ActorKey) (cycle : Cycle) (command : Command) :
    List Command :=
  match session.transmit command with
  | (session, .ok _) => session.offersOfActions key cycle.remaining
  | (_, .error _) => []

/-- The commands that are offered in a move of an actor. -/
def offersOfActor (session : Session) (actor : Actor) : List Command :=
  match actor.stage with
  | .sending cycle command answersAt =>
    if answersAt ≤ session.now.elapsed then session.offersOfRest actor.key cycle command else []
  | _ =>
    match session.awake? actor with
    | some awake =>
      if !awake.isEnding && session.mayLook awake then
        match session.missing awake with
        | .ok actions => session.offersOfActions actor.key actions
        | .error _ => []
      else []
    | none => []

theorem mem_offersOfActions {session : Session} {key : ActorKey} {actions : List RequiredAction}
    {command : Command} (offered : command ∈ session.offersOfActions key actions) :
    command.action ∈ actions ∧ command.lattice = key.lattice ∧ command.app = key.app ∧
      command.attempt = 1 := by
  induction actions generalizing session with
  | nil => cases offered
  | cons action actions ih =>
      have later : ∀ {session : Session}, command ∈ session.offersOfActions key actions →
          command.action ∈ action :: actions ∧ command.lattice = key.lattice ∧
            command.app = key.app ∧ command.attempt = 1 := fun member =>
        ⟨List.mem_cons_of_mem _ (ih member).1, (ih member).2⟩
      rw [offersOfActions] at offered
      cases free : session.engine.dispatcher.isFree session.now key.lattice action with
      | false =>
          rcases Dispatcher.propose_of_not_isFree free key.app with ⟨handle, proposed | proposed⟩
          · rw [proposed] at offered
            exact later offered
          · rw [proposed] at offered
            exact later offered
      | true =>
          rw [Dispatcher.propose_of_isFree free key.app] at offered
          simp only at offered
          split at offered
          · obtain rfl := List.mem_singleton.mp offered
            exact ⟨List.mem_cons_self, rfl, rfl, rfl⟩
          · split at offered
            · rcases List.mem_cons.mp offered with rfl | member
              · exact ⟨List.mem_cons_self, rfl, rfl, rfl⟩
              · exact later member
            · obtain rfl := List.mem_singleton.mp offered
              exact ⟨List.mem_cons_self, rfl, rfl, rfl⟩

/-- Something is offered for actions if nothing stands in the way of one of them. -/
theorem offersOfActions_ne_nil_iff (key : ActorKey) (actions : List RequiredAction) :
    session.offersOfActions key actions ≠ [] ↔
      ∃ action ∈ actions,
        session.engine.dispatcher.isFree session.now key.lattice action = true := by
  induction actions with
  | nil => simp [offersOfActions]
  | cons action actions ih =>
      rw [offersOfActions]
      cases free : session.engine.dispatcher.isFree session.now key.lattice action with
      | false =>
          rcases Dispatcher.propose_of_not_isFree free key.app with ⟨handle, proposed | proposed⟩
          · simp [proposed, ih, free]
          · simp [proposed, ih, free]
      | true =>
          rw [Dispatcher.propose_of_isFree free key.app]
          simp only [List.mem_cons, exists_eq_or_imp, free, true_or, iff_true]
          split
          · exact List.cons_ne_nil _ _
          · split <;> exact List.cons_ne_nil _ _

/--
How far a cycle comes while actions are dispatched: to its end, or to a command for which the
transport takes its time. Without actions the session is as it was.
-/
inductive Dispatching (session : Session) (actor : Actor) (total : Nat)
    (actions : List RequiredAction) (offered : List Command) : Acting → Prop
  | finishes {next : Session} (dispatches : session.Dispatches offered next)
      (untouched : actions = [] → next = session) (sent : Nat) :
      Dispatching session actor total actions offered (next.finishCycle actor ⟨total, sent, []⟩)
  | stays {next : Session} (dispatches : session.Dispatches offered next)
      (something : actions ≠ []) {remaining : List RequiredAction} (part : remaining <:+ actions)
      (sent : Nat) (command : Command) (answersAt : Nat) :
      Dispatching session actor total actions offered
        (next, { actor with stage := .sending ⟨total, sent, remaining⟩ command answersAt })

namespace Dispatching

variable {session next : Session} {actor : Actor} {total : Nat} {actions : List RequiredAction}
  {first rest : List Command} {result : Acting}

/-- An action before the others, and what is offered for it. -/
theorem cons (dispatches : session.Dispatches first next)
    (more : Dispatching next actor total actions rest result) (action : RequiredAction) :
    Dispatching session actor total (action :: actions) (first ++ rest) result := by
  cases more with
  | finishes others untouched sent =>
      exact .finishes (dispatches.trans others) (fun isNil => by cases isNil) sent
  | stays others something part sent command answersAt =>
      exact .stays (dispatches.trans others) (List.cons_ne_nil _ _)
        (part.trans (List.suffix_cons _ _)) sent command answersAt

end Dispatching

theorem dispatching_dispatchAll (actor : Actor) (total sent : Nat)
    (actions : List RequiredAction) :
    Dispatching session actor total actions (session.offersOfActions actor.key actions)
      (session.dispatchAll actor total sent actions) := by
  induction actions generalizing session sent with
  | nil => exact .finishes (.refl session) (fun _ => rfl) sent
  | cons action actions ih =>
      rcases session.engine.dispatcher.propose_cases session.now actor.key.lattice actor.key.app
        action with ⟨command, entering, proposed⟩ | ⟨handle, proposed | proposed⟩
      · have leads := session.engine.dispatcher.leads_perform
          (.propose session.now actor.key.lattice actor.key.app action)
        simp only [Dispatcher.perform, proposed] at leads
        have entered := session.dispatches_withDispatcher leads
        simp only [dispatchAll, offersOfActions, proposed]
        split
        · exact .stays entered (List.cons_ne_nil _ _) (List.suffix_cons _ _) sent command _
        · have transmitted := entered.trans
            ((session.withDispatcher _).dispatches_transmit command)
          change Dispatching session actor total (action :: actions)
            (match (session.withDispatcher _).transmit command with
              | (session, .ok _) => command :: session.offersOfActions actor.key actions
              | (_, .error _) => [command])
            (match (session.withDispatcher _).transmit command with
              | (session, .ok _) => session.dispatchAll actor total (sent + 1) actions
              | (session, .error problem) =>
                (session.noteDispatchError problem).finishCycle actor ⟨total, sent, []⟩)
          split
          · rename_i answered
            rw [answered] at transmitted
            exact .cons transmitted (ih _ _) action
          · rename_i problem answered
            rw [answered] at transmitted
            exact .finishes (transmitted.trans (dispatches_noteDispatchError _ problem))
              (fun isNil => by cases isNil) sent
      · simp only [dispatchAll, offersOfActions, proposed]
        exact .cons (.refl session) (ih session sent) action
      · simp only [dispatchAll, offersOfActions, proposed]
        exact .cons (.refl session) (ih session sent) action

/-- What holds when an actor completes a teardown by deleting the application from the store. -/
structure Erases (session : Session) (actor : Actor) (backend : Backend) : Prop where
  tearing : actor.intent = .teardown .graceful
  idle : session.engine.dispatcher.inFlightFor actor.key.lattice actor.key.app = 0
  removing : ∃ record, session.backend.deployment? actor.key.app = .ok (some record) ∧
    record.phase = .undeploying ∧ record.lattice = actor.key.lattice
  deleted : ∃ existed, session.backend.delete actor.key.app = .ok (backend, existed)

/-- How a cycle ends, and what a teardown that is complete does to the store. -/
inductive Finishing (session : Session) (actor : Actor) (total : Nat) : Acting → Prop
  | rests {next : Session} (dispatches : session.Dispatches [] next) (status : ActorStatus) :
      Finishing session actor total (next, { actor with stage := .receiving, status := status })
  | retires {next : Session} (dispatches : session.Dispatches [] next) {mode : UndeployMode}
      (tearing : actor.intent = .teardown mode) (status : ActorStatus) :
      Finishing session actor total
        (next, { actor with stage := .receiving, status := status, intent := .dormant })
  | erases {next : Session} (dispatches : session.Dispatches [] next) {backend : Backend}
      (complete : total = 0) (erases : session.Erases actor backend) (status : ActorStatus) :
      Finishing session actor total
        ({ next with backend := backend },
          { actor with stage := .receiving, status := status, intent := .dormant })

theorem deleteRemoved_cases {session last : Session} {key : ActorKey}
    (finished : session.deleteRemoved key = .ok last) :
    last = session ∨ ∃ record backend existed,
      session.backend.deployment? key.app = .ok (some record) ∧ record.phase = .undeploying ∧
      record.lattice = key.lattice ∧ session.backend.delete key.app = .ok (backend, existed) ∧
      last = ({ session with backend := backend } : Session).publish
        (.applicationDeleted key.app) := by
  rw [deleteRemoved] at finished
  cases recorded : session.backend.deployment? key.app with
  | error problem => simp [recorded, bind, Except.bind] at finished
  | ok deployment =>
      cases deployment with
      | none =>
          left
          simpa [recorded, bind, Except.bind, pure, Except.pure] using finished.symm
      | some record =>
          simp only [recorded, bind, Except.bind] at finished
          split at finished
          · rename_i removing
            right
            cases deleted : session.backend.delete key.app with
            | error problem => simp [deleted] at finished
            | ok result =>
                simp only [deleted, pure, Except.pure, Except.ok.injEq] at finished
                exact ⟨record, result.1, result.2, rfl, removing.1, removing.2, rfl, finished.symm⟩
          · left
            simpa [pure, Except.pure] using finished.symm

theorem finishing_finishCycle (actor : Actor) (cycle : Cycle) :
    Finishing session actor cycle.total (session.finishCycle actor cycle) := by
  rw [finishCycle]
  generalize reported : session.publish _ = next
  have dispatches : session.Dispatches [] next := reported ▸ session.dispatches_publish _
  have sameDispatcher : next.engine.dispatcher = session.engine.dispatcher := by
    rw [← reported]
    rfl
  simp only
  split
  · rename_i mode tearing
    split
    · rename_i complete
      rw [sameDispatcher] at complete
      cases mode with
      | force => exact .retires dispatches tearing _
      | graceful =>
          rw [finishTeardown]
          split
          · rename_i last finished
            rcases deleteRemoved_cases finished with
              rfl | ⟨record, backend, existed, recorded, removing, here, deleted, rfl⟩
            · exact .retires dispatches tearing _
            · rw [dispatches.backend] at recorded deleted
              exact .erases (dispatches.trans (next.dispatches_publish _)) complete.1
                ⟨tearing, complete.2, ⟨record, recorded, removing, here⟩, existed, deleted⟩ _
          · rename_i problem failed
            exact .rests (dispatches.trans (next.dispatches_noteStoreError problem)) _
    · exact .rests dispatches _
  · exact .rests dispatches _

end Session

end Reconciler
