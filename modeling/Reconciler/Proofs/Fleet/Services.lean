import Reconciler.Proofs.Engine.Calls
import Reconciler.Proofs.Engine.Conduct
import Reconciler.Proofs.Fleet.Runs

/-!
# What engines do besides moving their actors

Whatever is asked of an engine, and whatever it does of its chores and in its loops, comes to a few
kinds of services: commands are offered, actors are started, woken or taken off the roster, triggers
are put into queues or ordered to be, and the store changes. `Session.serves_afterDeed` takes every
deed apart into such services, so that what these keep is kept by all deeds but the moves of actors.
-/

namespace Reconciler

/-- Whether a trigger is an operator's and changes what an actor works towards. -/
def Trigger.isOrder : Trigger → Bool
  | deploy => true
  | rollback => true
  | undeploy _ => true
  | _ => false

/-- A trigger of an operator, and the number of the actor that it is for. -/
abbrev Order :=
  Nat × Trigger

/-- The order that a chore is to deliver, if it is to deliver one. -/
def Chore.order? : Chore → Option Order
  | .deliver number trigger _ => if trigger.isOrder then some (number, trigger) else none
  | _ => none

/-- The orders that chores are to deliver. -/
def Chore.orders (chores : List Chore) : List Order :=
  chores.filterMap order?

/-- The application whose deployment may end when something is asked for. -/
def Request.removed? : Request → Option AppName
  | undeploy app _ => some app
  | deleteApplication app => some app
  | _ => none

/-- The application whose deployment may end through a deed other than a move of its actor. -/
def Deed.removed? : Deed → Option AppName
  | answer request => request.removed?
  | _ => none

/-- Whether a deed starts, moves or ends maintenance loops. -/
def Deed.tendsLoops (deed : Deed) (doing : Option Chore) : Bool :=
  match deed with
  | answer .shutdown => true
  | moveLoop _ => true
  | _ => doing == some .startLoop

theorem Deed.tendsLoops_startLoop (deed : Deed) : deed.tendsLoops (some .startLoop) = true := by
  unfold tendsLoops
  split <;> rfl

namespace Session

/-- The chore that a deed is about, if it is about one. -/
def chore? (session : Session) : Deed → Option Chore
  | .perform chore => some chore
  | .moveLoop number => (session.engine.loop? number).bind fun loop => loop.chores.head?
  | _ => none

/-- The command that a chore offers once more, if it does that. -/
def resends? (session : Session) : Chore → Option Command
  | .resend start _ (key :: _) =>
    (session.engine.dispatcher.reenter? start session.now key).map Prod.snd
  | _ => none

/-- The commands that a deed offers to the transport. -/
def offers (session : Session) : Deed → List Command
  | .moveActor number =>
    match session.engine.actor? number with
    | some actor => session.offersOfActor actor
    | none => []
  | deed => ((session.chore? deed).bind session.resends?).toList

/--
A service in the course of a deed, with the chore that is being done if there is one: the commands
that are offered in it, the orders that come of it, and the session after it.
-/
inductive Service (deed : Deed) (doing : Option Chore) :
    Session → List Command → List Order → Session → Prop
  /-- Commands are offered, and other things happen that go with it. -/
  | dispatches {session next : Session} {offered : List Command}
      (dispatches : session.Dispatches offered next) : Service deed doing session offered [] next
  /-- The engine acts again. -/
  | recovers (session : Session) (asked : deed = .answer .recover) :
      Service deed doing session [] []
        { session with engine := { session.engine with health := .healthy } }
  /-- What the engine works with changes, and which applications are its own. -/
  | arranges (session : Session) (assignment : Option Assignment) (partition : Option Partition)
      (sink : Sink) (loops : List MaintenanceLoop) (loopsStarted : Nat)
      (maintenance : Option Nat)
      (kept : deed.tendsLoops doing = true ∨ loops = session.engine.loops) :
      Service deed doing session [] []
        { session with
          engine := { session.engine with
            assignment := assignment
            partition := partition
            sink := sink
            loops := loops
            loopsStarted := loopsStarted
            maintenance := maintenance } }
  /-- The store or the state of lattices changes, and no active deployment ends. -/
  | stores {session : Session} {backend : Backend} (retains : session.backend.Retains backend) :
      Service deed doing session [] [] { session with backend := backend }
  /-- Actors of the roster are woken. -/
  | nudges (session : Session) (test : ActorKey → Bool) {trigger : Trigger}
      (background : trigger.isBackground = true) :
      Service deed doing session [] []
        { session with engine := session.engine.nudgeAll test trigger }
  /-- An application gets an actor; it converges only where the application is deployed. -/
  | hires {session : Session} {key : ActorKey} (absent : session.engine.roster.find? key = none)
      {intent : Intent} (active : intent = .converge → session.backend.isActive key = true) :
      Service deed doing session [] []
        { session with engine := (session.engine.ensureActor key intent).1 }
  /-- The actor of an application that is deployed is to be told of it. -/
  | orders (session : Session) {key : ActorKey} {actor : Actor}
      (present : session.engine.roster.find? key = some actor)
      (active : session.backend.isActive key = true) (trigger : Trigger)
      (keeps : deed.removed? = none) :
      Service deed doing session [] [(actor.number, trigger)] session
  /-- A deployment ends, of which the actor there is to be told. -/
  | removes (session : Session) {app : AppName} (asked : deed.removed? = some app)
      {record : DeploymentRecord}
      (recorded : session.backend.store.deployment? app = some record) {actor : Actor}
      (present : session.engine.roster.find? ⟨record.lattice, app⟩ = some actor)
      (mode : UndeployMode) {backend : Backend}
      (retains : session.backend.RetainsBut app backend) :
      Service deed doing session [] [(actor.number, .undeploy mode)]
        { session with backend := backend }
  /-- A trigger is put into the queue of an actor, or waits for room there. -/
  | delivers (session : Session) {number : Nat} {trigger : Trigger} {isWaiting : Bool}
      (does : doing = some (.deliver number trigger isWaiting)) :
      Service deed doing session [] (Chore.orders (session.deliver number trigger isWaiting).2)
        (session.deliver number trigger isWaiting).1
  /-- An actor is taken off the roster. -/
  | takesOff (session : Session) (key : ActorKey) :
      Service deed doing session [] [] (session.takeOff key).1

/-- Any number of services, and all that comes of them. -/
inductive Serves (deed : Deed) (doing : Option Chore) :
    Session → List Command → List Order → Session → Prop
  | refl (session : Session) : Serves deed doing session [] [] session
  | head {session next last : Session} {first rest : List Command} {orders others : List Order}
      (service : Service deed doing session first orders next)
      (more : Serves deed doing next rest others last) :
      Serves deed doing session (first ++ rest) (orders ++ others) last

variable {deed : Deed} {doing : Option Chore} {session next last : Session}

theorem Service.serves {offered : List Command} {orders : List Order}
    (service : Service deed doing session offered orders next) :
    session.Serves deed doing offered orders next := by
  have served := Serves.head service (.refl next)
  rwa [List.append_nil, List.append_nil] at served

theorem Serves.trans {first rest : List Command} {orders others : List Order}
    (serves : session.Serves deed doing first orders next)
    (more : next.Serves deed doing rest others last) :
    session.Serves deed doing (first ++ rest) (orders ++ others) last := by
  induction serves with
  | refl _ => exact more
  | head service _ ih =>
      rw [List.append_assoc, List.append_assoc]
      exact .head service (ih more)

/-- Some services that offer nothing and order nothing come before others. -/
theorem Serves.after {offered : List Command} {orders : List Order}
    (more : next.Serves deed doing offered orders last)
    (serves : session.Serves deed doing [] [] next) :
    session.Serves deed doing offered orders last :=
  serves.trans more

theorem serves_of_dispatches {offered : List Command}
    (dispatches : session.Dispatches offered next) : session.Serves deed doing offered [] next :=
  (Service.dispatches dispatches).serves

/-- To put a trigger into a queue changes nothing but the actors. -/
theorem exists_deliver_eq (session : Session) (number : Nat) (trigger : Trigger)
    (isWaiting : Bool) : ∃ roster leaving, (session.deliver number trigger isWaiting).1 =
      { session with
        engine := { session.engine with roster := roster, leaving := leaving } } := by
  rw [deliver]
  split
  · exact ⟨_, _, rfl⟩
  · split
    · exact ⟨_, _, rfl⟩
    · split <;> exact ⟨_, _, rfl⟩

/-- A trigger that finds no room in the queue of its actor is left to be delivered. -/
theorem chores_deliver (session : Session) (number : Nat) (trigger : Trigger) (isWaiting : Bool) :
    (session.deliver number trigger isWaiting).2 = [] ∨
      (session.deliver number trigger isWaiting).2 = [.deliver number trigger true] := by
  rw [deliver]
  split
  · exact Or.inl rfl
  · split
    · exact Or.inl rfl
    · split
      · exact Or.inl rfl
      · exact Or.inr rfl

/-- To take an actor off the roster changes nothing but the actors. -/
theorem exists_takeOff_eq (session : Session) (key : ActorKey) :
    ∃ roster leaving, (session.takeOff key).1 =
      { session with
        engine := { session.engine with roster := roster, leaving := leaving } } := by
  rw [takeOff]
  split <;> exact ⟨_, _, rfl⟩

theorem serves_publish (event : ControlEvent) :
    session.Serves deed doing [] [] (session.publish event) :=
  serves_of_dispatches (session.dispatches_publish event)

theorem serves_publishAll (events : List ControlEvent) :
    session.Serves deed doing [] [] (session.publishAll events) := by
  induction events generalizing session with
  | nil => exact .refl session
  | cons event events ih => exact (serves_publish event).trans ih

theorem serves_withDispatcher {dispatcher : Dispatcher} {offered : List Command}
    (leads : session.engine.dispatcher.Leads offered dispatcher) :
    session.Serves deed doing offered [] (session.withDispatcher dispatcher) :=
  serves_of_dispatches (session.dispatches_withDispatcher leads)

theorem serves_stores {backend : Backend} (retains : session.backend.Retains backend) :
    session.Serves deed doing [] [] { session with backend := backend } :=
  (Service.stores retains).serves

theorem serves_nudgeAll (test : ActorKey → Bool) {trigger : Trigger}
    (background : trigger.isBackground = true) :
    session.Serves deed doing [] []
      { session with engine := session.engine.nudgeAll test trigger } :=
  (Service.nudges session test background).serves

theorem serves_notify (lattice : LatticeId) (scope : ChangeScope) :
    session.Serves deed doing [] [] (session.notify lattice scope) :=
  serves_nudgeAll _ rfl

theorem serves_observe (event : LatticeEvent) :
    session.Serves deed doing [] [] (session.observe event) := by
  rw [observe]
  split
  · exact .refl session
  · rename_i component host _
    exact serves_withDispatcher (session.engine.dispatcher.leads_perform
      (.observe event.lattice component host))

theorem serves_ingest (event : LatticeEvent) :
    session.Serves deed doing [] [] (session.ingest event).1 := by
  have projected : session.Serves deed doing [] []
      { session with backend := { session.backend with
        projector := (session.backend.projector.apply event).1 } } :=
    serves_stores (.refl session.backend)
  rw [ingest]
  simp only
  split
  · exact ((serves_notify _ _).after (serves_observe event)).after projected
  · exact projected

theorem serves_ingestAll (events : List LatticeEvent) :
    session.Serves deed doing [] [] (session.ingestAll events).1 := by
  induction events generalizing session with
  | nil => exact .refl session
  | cons event events ih => exact (serves_ingest event).trans ih

theorem serves_reapHosts (time : Timestamp) :
    session.Serves deed doing [] [] (session.reapHosts time).1 := by
  have projected : ∀ projector, session.Serves deed doing [] []
      { session with backend := { session.backend with projector := projector } } :=
    fun projector => serves_stores (.refl session.backend)
  have noted : ∀ (reaped : List (LatticeId × HostId)) (session : Session),
      session.Serves deed doing [] []
        (reaped.foldl
          (fun session expired =>
            (session.notify expired.1 .lattice).publish (.hostExpired expired.1 expired.2))
          session) := by
    intro reaped
    induction reaped with
    | nil => exact .refl
    | cons head reaped ih =>
        intro session
        exact ((ih _).after (serves_publish _)).after (serves_notify head.1 .lattice)
  rw [reapHosts]
  simp only
  split
  · exact projected _
  · exact (projected _).trans (noted _ _)

theorem serves_recover (asked : deed = .answer .recover) :
    session.Serves deed doing [] [] session.recover := by
  rw [recover]
  split
  · exact .refl session
  · exact ((serves_nudgeAll _ rfl).after (serves_publish _)).after
      (Service.recovers session asked).serves

/-- The actor that an application has after it was made sure that there is one. -/
theorem find?_ensureActor (engine : Engine) (key : ActorKey) (intent : Intent) :
    ∃ actor, (engine.ensureActor key intent).1.roster.find? key = some actor ∧
      (engine.ensureActor key intent).2.1 = actor.number := by
  rw [Engine.ensureActor]
  split
  · rename_i actor present
    exact ⟨actor, present, rfl⟩
  · exact ⟨_, by rw [SortedMap.find?_insert, if_pos rfl], rfl⟩

theorem serves_ensureActor (session : Session) (key : ActorKey) {intent : Intent}
    (active : intent = .converge → session.backend.isActive key = true) :
    session.Serves deed doing [] []
      { session with engine := (session.engine.ensureActor key intent).1 } := by
  cases present : session.engine.roster.find? key with
  | none => exact (Service.hires present active).serves
  | some actor =>
      rw [Engine.ensureActor, present]
      exact .refl session

end Session

namespace Call

open Session

/--
A call comes to services that offer nothing, and the orders that come of it are those of the chores
in its answer.
-/
def Serves {α : Type} (call : Call α) (deed : Deed) (doing : Option Chore)
    (chores : α → List Chore) (session : Session) : Prop :=
  session.Serves deed doing []
    (match (call.run session).1 with
      | .ok value => Chore.orders (chores value)
      | .error _ => [])
    (call.run session).2

variable {α β : Type} {deed : Deed} {doing : Option Chore} {session later : Session}

theorem Serves.bind {call : Call α} {next : α → Call β} {chores : β → List Chore}
    (first : call.Serves deed doing (fun _ => []) session)
    (rest : ∀ value later, call.run session = (.ok value, later) →
      (next value).Serves deed doing chores later) :
    (call >>= next).Serves deed doing chores session := by
  rw [Serves, run_bind]
  rcases ran : call.run session with ⟨problem | value, later⟩
  · rw [Serves, ran] at first
    exact first
  · rw [Serves, ran] at first
    exact (rest value later ran).after first

/-- Only the orders among the chores of an answer count. -/
theorem Serves.congr {call : Call α} {chores others : α → List Chore}
    (serves : call.Serves deed doing chores session)
    (same : ∀ value, Chore.orders (others value) = Chore.orders (chores value)) :
    call.Serves deed doing others session := by
  rw [Serves] at serves ⊢
  cases answered : (call.run session).1 with
  | ok value => simpa only [answered, same] using serves
  | error problem => simpa only [answered] using serves

/-- A call whose answer is only put in another form. -/
theorem Serves.map {call : Call α} {answer : α → β} {chores : β → List Chore}
    (serves : call.Serves deed doing (chores ∘ answer) session) :
    (call >>= fun value => pure (answer value)).Serves deed doing chores session := by
  rw [Serves, run_bind]
  rw [Serves] at serves
  rcases ran : call.run session with ⟨problem | value, later⟩
  · rw [ran] at serves
    exact serves
  · rw [ran] at serves
    exact serves

/-- The answer of a request is what is left to do before its own answer can be given. -/
theorem Serves.pending {call : Call (Pending α)}
    (serves : call.Serves deed doing Pending.chores session) :
    (call >>= fun pending => pure pending.chores).Serves deed doing id session := by
  refine Serves.map ?_
  exact serves

theorem Serves.outright {call : Call α} (serves : call.Serves deed doing (fun _ => []) session) :
    call.outright.Serves deed doing id session :=
  serves.bind fun _ later _ => .refl later

theorem Inquires.serves {call : Call α} (inquires : call.Inquires session)
    (chores : α → List Chore)
    (orderless : ∀ value, (call.run session).1 = .ok value → Chore.orders (chores value) = []) :
    call.Serves deed doing chores session := by
  have dispatched : session.Serves deed doing [] [] (call.run session).2 :=
    serves_of_dispatches inquires.dispatches
  rw [Serves]
  cases answered : (call.run session).1 with
  | ok value => simpa only [orderless value answered] using dispatched
  | error problem => exact dispatched

/-- A call that only asks something comes first. -/
theorem Inquires.andThen {call : Call α} {next : α → Call β} {chores : β → List Chore}
    (inquires : call.Inquires session)
    (rest : ∀ value, call.run session = (.ok value, session) →
      (next value).Serves deed doing chores session) :
    (call >>= next).Serves deed doing chores session :=
  (inquires.serves _ fun _ _ => rfl).bind fun value later ran => by
    obtain rfl := inquires.same ran
    exact rest value ran

theorem serves_pure (value : α) {chores : α → List Chore}
    (orderless : Chore.orders (chores value) = []) :
    (pure value : Call α).Serves deed doing chores session :=
  (inquires_pure value session).serves chores fun _ same => by
    cases same
    exact orderless

theorem serves_throw (problem : ControlError) (chores : α → List Chore) :
    (throw problem : Call α).Serves deed doing chores session :=
  (inquires_throw problem session).serves chores fun _ failed => by cases failed

theorem serves_alter {change : Session → Session}
    (serves : session.Serves deed doing [] [] (change session)) :
    (alter change).Serves deed doing (fun _ => []) session :=
  serves

theorem serves_publish (event : ControlEvent) :
    (publish event).Serves deed doing (fun _ => []) session :=
  Session.serves_publish event

theorem serves_change {request : StoreRequest} {answer : Store → Except StoreError (Store × α)}
    (retains : ∀ {store value}, answer session.backend.store = .ok (store, value) →
      session.backend.Retains { session.backend with store := store }) :
    (change request answer).Serves deed doing (fun _ => []) session := by
  rw [Serves]
  rcases ran : (change request answer).run session with ⟨problem | value, later⟩
  · exact serves_of_dispatches (dispatches_of_change_error ran)
  · rcases change_eq_ok ran with ⟨store, answered, rfl⟩
    exact serves_stores (retains answered)

end Call

end Reconciler
