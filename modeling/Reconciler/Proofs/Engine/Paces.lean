import Reconciler.Proofs.Engine.Conduct

/-!
# Steps of actors

A move takes an actor as far as it gets without waiting. In between it takes single steps: it
receives a trigger, it takes one more out of its queue, it looks at its application. A look does not
depend on what other actors there are, so that a move comes to the same as its steps.
-/

namespace Reconciler

/-- How far an actor is in a move. -/
inductive Pace where
  /-- It waits where its stage says. -/
  | waiting
  /-- It has received a trigger, and takes up to so many more out of its queue. -/
  | draining (left : Nat)
  /-- It has taken its triggers, and is about to end or to look at its application. -/
  | looking
deriving DecidableEq, Inhabited, Repr

namespace Session

/-- The session after an actor that has taken its triggers ends or looks at its application. -/
def look (session : Session) (actor : Actor) : Session :=
  if actor.isEnding then
    { session with engine := session.engine.removeActor actor.number }
  else
    let (session, actor) := session.beginCycle actor
    session.putActor actor

theorem look_of_ending (session : Session) {actor : Actor} (ending : actor.isEnding = true) :
    session.look actor = { session with engine := session.engine.removeActor actor.number } := by
  rw [look, ending]
  rfl

theorem look_of_lasting (session : Session) {actor : Actor} (lasting : actor.isEnding = false) :
    session.look actor = (session.beginCycle actor).1.putActor (session.beginCycle actor).2 := by
  rw [look, lasting]
  rfl

/-- The session after a step of an actor, and how far the actor is then. -/
def step (session : Session) (actor : Actor) : Pace → Session × Pace
  | .waiting =>
    match session.roused? actor with
    | some roused =>
      (session.putActor roused, .draining session.engine.config.reconcile.batch)
    | none => (session.moveActor actor, .waiting)
  | .draining 0 => (session, .looking)
  | .draining (left + 1) =>
    match actor.queue with
    | [] => (session, .looking)
    | trigger :: queue =>
      (session.putActor ({ actor with queue := queue }.absorb trigger), .draining left)
  | .looking => (session.look actor, .waiting)

/-- A move is one step, or the first of several. -/
theorem moveActor_eq_wake {session : Session} {actor roused : Actor}
    (rouses : session.roused? actor = some roused) :
    session.moveActor actor = session.wake roused := by
  unfold roused? at rouses
  unfold moveActor
  split at rouses
  · rename_i trigger queue receiving queued
    split at rouses
    · cases rouses
    · rename_i prompt
      obtain rfl := Option.some.inj rouses
      simp only [receiving, queued, receive, if_neg prompt]
  · rename_i deadline debouncing
    split at rouses
    · rename_i past
      obtain rfl := Option.some.inj rouses
      simp only [debouncing, if_pos past]
    · rename_i early
      split at rouses
      · cases rouses
      · rename_i trigger queue queued
        split at rouses
        · cases rouses
        · rename_i urgent
          obtain rfl := Option.some.inj rouses
          simp only [debouncing, queued, if_neg early, receiveMore, if_neg urgent]
  · cases rouses

/-- The session with other actors. -/
def withActors (session : Session) (roster : SortedMap ActorKey Actor) (leaving : List Actor) :
    Session :=
  { session with engine := { session.engine with roster := roster, leaving := leaving } }

section OtherActors

variable (session : Session) (roster : SortedMap ActorKey Actor) (leaving : List Actor)

theorem now_withActors : (session.withActors roster leaving).now = session.now :=
  rfl

theorem dispatcher_withActors :
    (session.withActors roster leaving).engine.dispatcher = session.engine.dispatcher :=
  rfl

theorem publish_withActors (event : ControlEvent) :
    (session.withActors roster leaving).publish event =
      (session.publish event).withActors roster leaving :=
  rfl

theorem reportFatal_withActors (reason : String) :
    (session.withActors roster leaving).reportFatal reason =
      (session.reportFatal reason).withActors roster leaving := by
  rw [reportFatal, reportFatal, withActors]
  cases session.engine.health <;> rfl

theorem noteStoreError_withActors (problem : StoreError) :
    (session.withActors roster leaving).noteStoreError problem =
      (session.noteStoreError problem).withActors roster leaving := by
  rw [noteStoreError, noteStoreError, reportFatal_withActors]
  split <;> rfl

theorem noteDispatchError_withActors (problem : DispatchError) :
    (session.withActors roster leaving).noteDispatchError problem =
      (session.noteDispatchError problem).withActors roster leaving := by
  rw [noteDispatchError, noteDispatchError, reportFatal_withActors]
  split <;> rfl

theorem failCycle_withActors (actor : Actor) (problem : StoreError) :
    (session.withActors roster leaving).failCycle actor problem =
      ((session.failCycle actor problem).1.withActors roster leaving,
        (session.failCycle actor problem).2) := by
  rw [failCycle, failCycle, noteStoreError_withActors]

theorem deleteRemoved_withActors (key : ActorKey) :
    (session.withActors roster leaving).deleteRemoved key =
      (session.deleteRemoved key).map fun next => next.withActors roster leaving := by
  rw [deleteRemoved, deleteRemoved, withActors]
  cases session.backend.deployment? key.app with
  | error problem => rfl
  | ok deployment =>
      cases deployment with
      | none => rfl
      | some record =>
          simp only [bind, Except.bind]
          split
          · cases session.backend.delete key.app <;> rfl
          · rfl

theorem finishTeardown_withActors (actor : Actor) (mode : UndeployMode) :
    (session.withActors roster leaving).finishTeardown actor mode =
      ((session.finishTeardown actor mode).1.withActors roster leaving,
        (session.finishTeardown actor mode).2) := by
  cases mode with
  | force => rfl
  | graceful =>
      rw [finishTeardown, finishTeardown, deleteRemoved_withActors]
      cases session.deleteRemoved actor.key with
      | error problem => exact session.failCycle_withActors roster leaving actor problem
      | ok next => rfl

theorem finishCycle_withActors (actor : Actor) (cycle : Cycle) :
    (session.withActors roster leaving).finishCycle actor cycle =
      ((session.finishCycle actor cycle).1.withActors roster leaving,
        (session.finishCycle actor cycle).2) := by
  rw [finishCycle, finishCycle]
  simp only
  split
  · split
    · rename_i complete
      rw [publish_withActors, finishTeardown_withActors]
      exact congrArg (fun result : Acting => (result.1.withActors roster leaving, result.2))
        (if_pos complete).symm
    · rename_i incomplete
      refine Eq.trans ?_ (congrArg (fun result : Acting =>
        (result.1.withActors roster leaving, result.2)) (if_neg incomplete).symm)
      rfl
  · rfl

theorem transmit_withActors (command : Command) :
    (session.withActors roster leaving).transmit command =
      ((session.transmit command).1.withActors roster leaving, (session.transmit command).2) :=
  rfl

omit roster leaving in
/-- To offer a command to the transport, which may answer at once. -/
theorem dispatchAll_of_offer {actor : Actor} {action : RequiredAction} {dispatcher : Dispatcher}
    {command : Command}
    (proposed : session.engine.dispatcher.propose session.now actor.key.lattice actor.key.app
      action = (dispatcher, .offer command))
    (total sent : Nat) (actions : List RequiredAction) :
    session.dispatchAll actor total sent (action :: actions) =
      if 0 < session.engine.sink.delay then
        (session.withDispatcher dispatcher,
          { actor with
            stage := .sending ⟨total, sent, actions⟩ command
              (session.now.elapsed + session.engine.sink.delay) })
      else
        match (session.withDispatcher dispatcher).transmit command with
        | (session, .ok _) => session.dispatchAll actor total (sent + 1) actions
        | (session, .error problem) =>
          (session.noteDispatchError problem).finishCycle actor ⟨total, sent, []⟩ := by
  simp only [dispatchAll, proposed]
  rfl

theorem dispatchAll_withActors (actor : Actor) (total sent : Nat) (actions : List RequiredAction) :
    (session.withActors roster leaving).dispatchAll actor total sent actions =
      ((session.dispatchAll actor total sent actions).1.withActors roster leaving,
        (session.dispatchAll actor total sent actions).2) := by
  induction actions generalizing session sent with
  | nil => exact session.finishCycle_withActors roster leaving actor _
  | cons action actions ih =>
      rcases session.engine.dispatcher.propose_cases session.now actor.key.lattice actor.key.app
        action with ⟨command, entering, proposed⟩ | ⟨handle, proposed | proposed⟩
      · rw [dispatchAll_of_offer session proposed,
          dispatchAll_of_offer (session.withActors roster leaving) proposed]
        by_cases slow : 0 < session.engine.sink.delay
        · have slowThere : 0 < (session.withActors roster leaving).engine.sink.delay := slow
          rw [if_pos slow, if_pos slowThere]
          rfl
        · have fastThere : ¬0 < (session.withActors roster leaving).engine.sink.delay := slow
          rw [if_neg slow, if_neg fastThere]
          generalize session.engine.dispatcher.enter session.now command = dispatcher
          change (match ((session.withDispatcher dispatcher).withActors roster leaving).transmit
              command with
            | (session, .ok _) => session.dispatchAll actor total (sent + 1) actions
            | (session, .error problem) =>
              (session.noteDispatchError problem).finishCycle actor ⟨total, sent, []⟩) = _
          rw [transmit_withActors]
          rcases (session.withDispatcher dispatcher).transmit command with
            ⟨next, problem | outcome⟩
          · simp only [noteDispatchError_withActors, finishCycle_withActors]
          · exact ih next (sent + 1)
      · simp only [dispatchAll, dispatcher_withActors, now_withActors, proposed]
        exact ih session sent
      · simp only [dispatchAll, dispatcher_withActors, now_withActors, proposed]
        exact ih session sent

theorem beginCycle_withActors (actor : Actor) :
    (session.withActors roster leaving).beginCycle actor =
      ((session.beginCycle actor).1.withActors roster leaving, (session.beginCycle actor).2) := by
  have sameLook : (session.withActors roster leaving).mayLook actor = session.mayLook actor := rfl
  have sameMissing : (session.withActors roster leaving).missing actor = session.missing actor :=
    rfl
  rw [beginCycle, beginCycle, sameLook, sameMissing]
  split
  · cases session.missing actor with
    | error problem => exact session.failCycle_withActors roster leaving actor problem
    | ok actions => exact session.dispatchAll_withActors roster leaving _ _ 0 actions
  · rfl

end OtherActors

end Session

namespace Actor

/--
An actor that is the same one, with as many callers in its line, after it has taken triggers from
the front of its queue.
-/
structure SameSeat (former actor : Actor) : Prop where
  number : actor.number = former.number
  key : actor.key = former.key
  callers : actor.callers = former.callers
  taken : ∃ taken, former.queue = taken ++ actor.queue ∧
    (actor.isEnding = true ↔ former.isEnding = true ∨ .shutdown ∈ taken)

variable {former actor : Actor}

theorem SameSeat.of_queue (number : actor.number = former.number) (key : actor.key = former.key)
    (callers : actor.callers = former.callers) (queue : actor.queue = former.queue)
    (isEnding : actor.isEnding = former.isEnding) : former.SameSeat actor :=
  ⟨number, key, callers, [], queue.symm, by simp [isEnding]⟩

theorem SameSeat.refl (actor : Actor) : actor.SameSeat actor :=
  .of_queue rfl rfl rfl rfl rfl

theorem sameSeat_absorb {trigger : Trigger} {queue : List Trigger}
    (queued : actor.queue = trigger :: queue) :
    actor.SameSeat ({ actor with queue := queue }.absorb trigger) := by
  have takes := takes_absorb queued
  exact ⟨takes.number, takes.key, rfl, [trigger], takes.queue, takes.isEnding⟩

end Actor

theorem Stage.receiving_ne_debouncing (deadline : Nat) : receiving ≠ debouncing deadline := by
  intro same
  cases same

theorem Stage.sending_ne_debouncing {cycle : Cycle} {command : Command} {answersAt : Nat}
    (deadline : Nat) : sending cycle command answersAt ≠ debouncing deadline := by
  intro same
  cases same

namespace Session

/--
An actor has worked on a cycle, in which it does not attend to its queue; then it waits for the
transport or for the next trigger.
-/
structure Works (session : Session) (actor : Actor) (result : Acting) : Prop where
  now : result.1.now = session.now
  crew : session.engine.SameCrew result.1.engine
  seat : actor.SameSeat result.2
  queue : result.2.queue = actor.queue
  prompt : ∀ deadline, result.2.stage ≠ .debouncing deadline

variable {session next : Session} {actor : Actor}

theorem Dispatches.works {offered : List Command} (dispatches : session.Dispatches offered next)
    {result : Acting} (works : next.Works actor result) : session.Works actor result :=
  { works with
    now := works.now.trans dispatches.now
    crew := dispatches.crew.trans works.crew }

theorem Finishing.works {total : Nat} {result : Acting}
    (finishing : session.Finishing actor total result) : session.Works actor result := by
  cases finishing with
  | rests dispatches =>
      exact ⟨dispatches.now, dispatches.crew, .of_queue rfl rfl rfl rfl rfl, rfl,
        Stage.receiving_ne_debouncing⟩
  | retires dispatches =>
      exact ⟨dispatches.now, dispatches.crew, .of_queue rfl rfl rfl rfl rfl, rfl,
        Stage.receiving_ne_debouncing⟩
  | erases dispatches =>
      exact ⟨dispatches.now, dispatches.crew, .of_queue rfl rfl rfl rfl rfl, rfl,
        Stage.receiving_ne_debouncing⟩

theorem Dispatching.works {total : Nat} {actions : List RequiredAction}
    {offered : List Command} {result : Acting}
    (dispatching : session.Dispatching actor total actions offered result) :
    session.Works actor result := by
  cases dispatching with
  | @finishes next dispatches nothing sent =>
      exact dispatches.works (next.finishing_finishCycle actor ⟨total, sent, []⟩).works
  | stays dispatches =>
      exact ⟨dispatches.now, dispatches.crew, .of_queue rfl rfl rfl rfl rfl, rfl,
        Stage.sending_ne_debouncing⟩

theorem works_beginCycle (session : Session) (actor : Actor) :
    session.Works actor (session.beginCycle actor) := by
  rw [beginCycle]
  split
  · split
    · rename_i actions _
      have begun := (session.dispatching_dispatchAll actor.dispatching actions.length 0
        actions).works
      have seat := begun.seat
      exact ⟨begun.now, begun.crew, ⟨seat.number, seat.key, seat.callers, seat.taken⟩,
        begun.queue, begun.prompt⟩
    · rename_i problem _
      have noted := session.dispatches_noteStoreError problem
      exact ⟨noted.now, noted.crew, .of_queue rfl rfl rfl rfl rfl, rfl,
        Stage.receiving_ne_debouncing⟩
  · exact ⟨rfl, .refl _, .of_queue rfl rfl rfl rfl rfl, rfl, Stage.receiving_ne_debouncing⟩

theorem works_resumeCycle (session : Session) (actor : Actor) (cycle : Cycle)
    (command : Command) : session.Works actor (session.resumeCycle actor cycle command) := by
  have transmitted := session.dispatches_transmit command
  rw [resumeCycle]
  rcases answer : session.transmit command with ⟨next, problem | outcome⟩
  · rw [answer] at transmitted
    have noted := next.dispatches_noteDispatchError problem
    have finished := (next.noteDispatchError problem).finishing_finishCycle actor cycle
    exact transmitted.works (noted.works finished.works)
  · rw [answer] at transmitted
    exact transmitted.works (next.dispatching_dispatchAll actor cycle.total (cycle.sent + 1)
      cycle.remaining).works

/-- What a step of an actor is, the session after it, and how far the actor is then. -/
inductive Step (session : Session) (actor : Actor) : Pace → Session × Pace → Prop
  /-- There is nothing to do yet. -/
  | waits : Step session actor .waiting (session, .waiting)
  /-- The actor takes a trigger, and waits for more. -/
  | absorbs {awake : Actor} {deadline : Nat} (seat : actor.SameSeat awake)
      (stage : awake.stage = .debouncing deadline) :
      Step session actor .waiting (session.putActor awake, .waiting)
  /-- The actor goes on with a cycle for which the transport has taken its time. -/
  | resumes {cycle : Cycle} {command : Command} {answersAt : Nat} {result : Acting}
      (sending : actor.stage = .sending cycle command answersAt)
      (works : session.Works actor result) :
      Step session actor .waiting (result.1.putActor result.2, .waiting)
  /-- The actor has a trigger for which it is to look at its application. -/
  | receives {roused : Actor} (left : Nat) (seat : actor.SameSeat roused) :
      Step session actor .waiting (session.putActor roused, .draining left)
  /-- The actor takes one more trigger. -/
  | takes {awake : Actor} (left : Nat) (seat : actor.SameSeat awake) :
      Step session actor (.draining (left + 1)) (session.putActor awake, .draining left)
  /-- The actor has taken its triggers. -/
  | turns (left : Nat) : Step session actor (.draining left) (session, .looking)
  /-- The actor ends. -/
  | ends (ending : actor.isEnding = true) :
      Step session actor .looking
        ({ session with engine := session.engine.removeActor actor.number }, .waiting)
  /-- The actor looks at its application. -/
  | looks {result : Acting} (lasting : actor.isEnding = false)
      (works : session.Works actor result) :
      Step session actor .looking (result.1.putActor result.2, .waiting)

theorem sameSeat_of_roused? {roused : Actor} (rouses : session.roused? actor = some roused) :
    actor.SameSeat roused := by
  rw [roused?] at rouses
  split at rouses
  · rename_i trigger queue _ queued
    split at rouses
    · cases rouses
    · obtain rfl := Option.some.inj rouses
      exact Actor.sameSeat_absorb queued
  · split at rouses
    · obtain rfl := Option.some.inj rouses
      exact .refl actor
    · split at rouses
      · cases rouses
      · rename_i trigger queue queued
        split at rouses
        · cases rouses
        · obtain rfl := Option.some.inj rouses
          exact Actor.sameSeat_absorb queued
  · cases rouses

/-- If a move does not wake the actor, it is one step. -/
theorem step_of_asleep (asleep : session.roused? actor = none) :
    session.Step actor .waiting (session.moveActor actor, .waiting) := by
  rw [moveActor.eq_def]
  split
  · exact .waits
  · rename_i trigger queue receiving queued
    simp only [roused?, receiving, queued, ite_eq_left_iff, reduceCtorEq, imp_false,
      Decidable.not_not] at asleep
    rw [receive, if_pos asleep]
    have seat := Actor.sameSeat_absorb queued
    exact .absorbs ⟨seat.number, seat.key, seat.callers, seat.taken⟩ rfl
  · rename_i deadline debouncing
    simp only [roused?, debouncing] at asleep
    split
    · rename_i past
      rw [if_pos past] at asleep
      cases asleep
    · rename_i early
      rw [if_neg early] at asleep
      split
      · exact .waits
      · rename_i trigger queue queued
        simp only [queued, ite_eq_left_iff, reduceCtorEq, imp_false, Decidable.not_not] at asleep
        rw [receiveMore, if_pos asleep]
        exact .absorbs (Actor.sameSeat_absorb queued) debouncing
  · rename_i cycle command answersAt sending
    split
    · exact .resumes sending (session.works_resumeCycle actor cycle command)
    · exact .waits

theorem step_cases (session : Session) (actor : Actor) (pace : Pace) :
    session.Step actor pace (session.step actor pace) := by
  cases pace with
  | waiting =>
      rw [step]
      cases rouses : session.roused? actor with
      | none => exact step_of_asleep rouses
      | some roused => exact .receives _ (sameSeat_of_roused? rouses)
  | draining left =>
      cases left with
      | zero => exact .turns 0
      | succ left =>
          rw [step]
          split
          · exact .turns _
          · rename_i trigger queue queued
            exact .takes left (Actor.sameSeat_absorb queued)
  | looking =>
      rw [step]
      cases ending : actor.isEnding with
      | true =>
          rw [session.look_of_ending ending]
          exact .ends ending
      | false =>
          rw [session.look_of_lasting ending]
          exact .looks ending (session.works_beginCycle actor)

end Session

end Reconciler
