import Reconciler.Proofs.Fleet.Services

/-!
# Which services deeds come to

Every request, every chore and every move of a loop comes to services. A request that orders
something of an actor leaves that for the first of its chores.
-/

namespace Reconciler

namespace Call

open Session

variable {deed : Deed} {doing : Option Chore} {session later : Session}

theorem serves_trigger {key : ActorKey} (active : session.backend.isActive key = true)
    {cause : Trigger} (isOrder : cause.isOrder = true) (keeps : deed.removed? = none) :
    (trigger key .converge cause).Serves deed doing id session := by
  rcases find?_ensureActor session.engine key .converge with ⟨actor, present, number⟩
  have ordered : Chore.orders
      [.deliver (session.engine.ensureActor key .converge).2.1 cause false] =
      [(actor.number, cause)] := by
    simp [Chore.orders, Chore.order?, isOrder, number]
  rw [Serves, run_trigger]
  simp only [id_eq, ordered]
  have hired : session.Serves deed doing [] []
      { session with engine := (session.engine.ensureActor key .converge).1 } :=
    serves_ensureActor session key fun _ => active
  exact (Service.orders { session with engine := _ } present active cause keeps).serves.after hired

theorem serves_triggerDeployed (app : AppName) {cause : Trigger}
    (isOrder : cause.isOrder = true) (keeps : deed.removed? = none) :
    (triggerDeployed app cause).Serves deed doing id session := by
  refine (inquires_deployment? app session).andThen ?_
  intro deployment asked
  have recorded := deployment?_eq_ok asked
  rcases deployment with _ | ⟨lattice, _ | _, updatedAt⟩
  · exact serves_pure [] rfl
  · have active : session.backend.isActive ⟨lattice, app⟩ = true :=
      Backend.isActive_iff.mpr ⟨_, recorded, rfl, rfl⟩
    exact serves_trigger active isOrder keeps
  · exact serves_pure [] rfl

theorem serves_submit (manifest : Manifest) (keeps : deed.removed? = none) :
    (submit manifest).Serves deed doing Pending.chores session := by
  refine (inquires_ensureHealthy session).andThen fun _ _ => ?_
  refine (inquires_ensureOwned manifest.name session).andThen fun _ _ => ?_
  refine (inquires_get session).andThen fun current _ => ?_
  refine (serves_change fun stored => ?_).bind fun version later _ => ?_
  · exact Backend.SameDeployments.retains (Store.deployment?_put stored)
  · refine (serves_publish _).bind fun _ _ _ => ?_
    exact (serves_triggerDeployed manifest.name rfl keeps).map

theorem serves_rollbackStore (app : AppName) (version : String) :
    (rollbackStore app version).Serves deed doing (fun _ => []) session :=
  serves_change fun current =>
    Backend.SameDeployments.retains (Store.deployment?_rollback current)

theorem serves_rollback (app : AppName) (version : String) (keeps : deed.removed? = none) :
    (rollback app version).Serves deed doing Pending.chores session := by
  refine (inquires_ensureHealthy session).andThen fun _ _ => ?_
  refine (inquires_ensureOwned app session).andThen fun _ _ => ?_
  refine (serves_rollbackStore app version).bind fun manifest later _ => ?_
  refine (serves_publish _).bind fun _ _ _ => ?_
  exact (serves_triggerDeployed app rfl keeps).map

theorem serves_prune (app : AppName) (keep : Nat) :
    (prune app keep).Serves deed doing (fun _ => []) session := by
  refine (inquires_ensureOwned app session).andThen fun _ _ => ?_
  exact serves_change fun pruned =>
    Backend.SameDeployments.retains (Store.deployment?_prune pruned)

theorem serves_selectVersion (app : AppName) (version : Option String) :
    (selectVersion app version).Serves deed doing (fun _ => []) session := by
  refine (inquires_query _ _ session).andThen fun current _ => ?_
  cases version with
  | none => exact serves_pure _ rfl
  | some version =>
      simp only
      split
      · exact serves_pure _ rfl
      · exact serves_rollbackStore app version

/-- To select a version does not change where applications are deployed. -/
theorem sameDeployments_selectVersion {app : AppName} {version : Option String}
    {manifest : Manifest}
    (selected : (selectVersion app version).run session = (.ok manifest, later)) :
    session.backend.SameDeployments later.backend := by
  rw [selectVersion, run_bind] at selected
  rcases asked : (getCurrent app).run session with ⟨problem | current, middle⟩
  · rw [asked] at selected
    cases selected
  · rw [asked] at selected
    obtain rfl := (inquires_query _ _ session).same asked
    cases version with
    | none =>
        cases selected
        exact fun _ => rfl
    | some version =>
        simp only at selected
        split at selected
        · cases selected
          exact fun _ => rfl
        · rcases change_eq_ok selected with ⟨store, current, rfl⟩
          exact Store.deployment?_rollback current

theorem serves_setDeployment {app : AppName} {lattice : LatticeId} {time : Timestamp}
    (here : ∀ record, session.backend.store.deployment? app = some record →
      record.lattice = lattice) :
    (setDeployment app ⟨lattice, .active, time⟩).Serves deed doing (fun _ => []) session := by
  rw [Serves]
  rcases ran : (setDeployment app ⟨lattice, .active, time⟩).run session with
    ⟨problem | _, later⟩
  · exact serves_of_dispatches (dispatches_of_change_error ran)
  · rcases setDeployment_eq_ok ran with ⟨store, stored, rfl⟩
    exact serves_stores (Backend.retains_of_setDeployment stored here)

theorem serves_deploy (app : AppName) (version : Option String) (lattice : LatticeId)
    (keeps : deed.removed? = none) :
    (deploy app version lattice).Serves deed doing Pending.chores session := by
  refine (inquires_ensureHealthy session).andThen fun _ _ => ?_
  refine (inquires_ensureOwned app session).andThen fun _ _ => ?_
  refine (inquires_ensureDeployable app lattice session).andThen fun _ passed => ?_
  refine (serves_selectVersion app version).bind fun manifest selecting selected => ?_
  refine (inquires_get selecting).andThen fun current _ => ?_
  have here : ∀ record, selecting.backend.store.deployment? app = some record →
      record.lattice = lattice := by
    intro record recorded
    rw [sameDeployments_selectVersion selected app] at recorded
    exact lattice_of_ensureDeployable passed recorded
  refine (serves_setDeployment here).bind fun _ recording recorded => ?_
  rcases setDeployment_eq_ok recorded with ⟨store, stored, rfl⟩
  have active : ({ selecting.backend with store := store } : Backend).isActive ⟨lattice, app⟩ =
      true := Backend.isActive_of_setDeployment stored
  refine ((serves_trigger active rfl keeps).congr ?_).map
  intro chores
  simp [Chore.orders, Chore.order?]

theorem dispatches_of_beginRemoval_error {app : AppName} {lattice : LatticeId}
    {mode : UndeployMode} {problem : ControlError}
    (failed : (beginRemoval app lattice mode).run session = (.error problem, later)) :
    session.Dispatches [] later := by
  cases mode with
  | graceful => exact dispatches_of_change_error failed
  | force =>
      rw [beginRemoval, run_bind] at failed
      rcases ran : (deleteStored app).run session with ⟨other | existed, middle⟩
      · rw [ran] at failed
        cases failed
        exact dispatches_of_change_error ran
      · rw [ran] at failed
        cases failed

/-- A removal that has begun ends at most the deployment of its application. -/
theorem beginRemoval_eq_ok {app : AppName} {lattice : LatticeId} {mode : UndeployMode}
    (begun : (beginRemoval app lattice mode).run session = (.ok (), later)) :
    ∃ middle backend, session.Dispatches [] middle ∧
      session.backend.RetainsBut app backend ∧ later = { middle with backend := backend } := by
  cases mode with
  | graceful =>
      rcases setDeployment_eq_ok begun with ⟨store, recorded, rfl⟩
      exact ⟨session, _, .refl session, Backend.retainsBut_of_setDeployment recorded, rfl⟩
  | force =>
      rw [beginRemoval, run_bind] at begun
      rcases ran : (deleteStored app).run session with ⟨problem | existed, middle⟩
      · rw [ran] at begun
        cases begun
      · rw [ran] at begun
        rcases change_eq_ok ran with ⟨store, deleted, rfl⟩
        cases deleted
        cases begun
        exact ⟨session.publish (.applicationDeleted app), _, session.dispatches_publish _,
          session.backend.retainsBut_of_delete app, rfl⟩

theorem serves_undeploy {app : AppName} (asked : deed.removed? = some app) (mode : UndeployMode) :
    (undeploy app mode).Serves deed doing Pending.chores session := by
  refine (inquires_ensureHealthy session).andThen fun _ _ => ?_
  refine (inquires_ensureOwned app session).andThen fun _ _ => ?_
  refine (inquires_deployment? app session).andThen fun deployment found => ?_
  have recorded := deployment?_eq_ok found
  cases deployment with
  | none => exact serves_throw _ _
  | some record =>
      simp only
      rw [Serves, run_bind]
      rcases ran : (beginRemoval app record.lattice mode).run session with ⟨problem | _, later⟩
      · exact serves_of_dispatches (dispatches_of_beginRemoval_error ran)
      · rcases beginRemoval_eq_ok ran with ⟨middle, backend, dispatches, retains, rfl⟩
        -- The actor is made sure of before the store changes; neither depends on the other.
        rcases find?_ensureActor middle.engine ⟨record.lattice, app⟩ (.teardown mode) with
          ⟨actor, present, number⟩
        let hired : Session := { middle with
          engine := (middle.engine.ensureActor ⟨record.lattice, app⟩ (.teardown mode)).1 }
        have hires : middle.Serves deed doing [] [] hired :=
          serves_ensureActor middle _ fun isConverge => by cases isConverge
        rw [← dispatches.backend] at recorded retains
        have removes : Service deed doing hired [] [(actor.number, .undeploy mode)]
            { hired with backend := backend } :=
          .removes hired asked recorded present mode retains
        have served := (removes.serves.after hires).after (serves_of_dispatches dispatches)
        have ordered : Chore.orders
            [.deliver (middle.engine.ensureActor ⟨record.lattice, app⟩ (.teardown mode)).2.1
                (.undeploy mode) false,
              .publish (.undeployRequested app record.lattice (mode == .force))] =
            [(actor.number, .undeploy mode)] := by
          simp [Chore.orders, Chore.order?, Trigger.isOrder, number]
        rw [← ordered] at served
        exact served

theorem serves_deleteApplication {app : AppName} (asked : deed.removed? = some app) :
    (deleteApplication app).Serves deed doing Pending.chores session := by
  refine (inquires_ensureHealthy session).andThen fun _ _ => ?_
  refine (inquires_ensureOwned app session).andThen fun _ _ => ?_
  refine (inquires_deployment? app session).andThen fun deployment found => ?_
  have recorded := deployment?_eq_ok found
  cases deployment with
  | some record =>
      rw [Option.isSome_some, if_pos rfl]
      refine Serves.map ?_
      exact serves_undeploy asked .force
  | none =>
      rw [Option.isSome_none, if_neg Bool.false_ne_true]
      have deletes : (deleteStored app).Serves deed doing (fun _ => []) session := by
        refine serves_change fun {store existed} deleted => ?_
        exact Backend.retains_of_delete (Except.ok.inj deleted) fun record found => by
          rw [recorded] at found
          cases found
      refine deletes.bind fun existed later _ => ?_
      cases existed with
      | false => exact serves_pure _ rfl
      | true => exact (serves_publish _).bind fun _ _ _ => serves_pure _ rfl

/-- The deployments of a list are what the store says of their applications. -/
def AreRecorded (backend : Backend) (deployments : List (AppName × DeploymentRecord)) : Prop :=
  ∀ deployment ∈ deployments, backend.store.deployment? deployment.1 = some deployment.2

theorem areRecorded_listDeployments (backend : Backend) :
    AreRecorded backend backend.store.listDeployments := by
  intro deployment member
  rcases List.mem_filterMap.mp member with ⟨⟨app, record⟩, entry, deployed⟩
  rcases Option.map_eq_some_iff.mp deployed with ⟨recorded, same, rfl⟩
  rw [Store.deployment?, SortedMap.mem_entries_iff.mp entry, Option.bind_some]
  exact same

/-- To take up deployments starts the actors that are missing for them. -/
theorem serves_adopt {deployments : List (AppName × DeploymentRecord)}
    (recorded : AreRecorded session.backend deployments) :
    (adopt deployments).Serves deed doing (fun _ => []) session := by
  induction deployments generalizing session with
  | nil => exact serves_pure _ rfl
  | cons deployment rest ih =>
      rcases deployment with ⟨app, record⟩
      have first := recorded _ List.mem_cons_self
      have others : AreRecorded session.backend rest := fun deployment member =>
        recorded deployment (List.mem_cons_of_mem _ member)
      have active : intentOf record.phase = .converge →
          session.backend.isActive ⟨record.lattice, app⟩ = true := by
        intro converges
        refine Backend.isActive_iff.mpr ⟨record, first, ?_, rfl⟩
        cases phase : record.phase with
        | active => rfl
        | undeploying => simp [intentOf, phase] at converges
      have hires : (ensureActor ⟨record.lattice, app⟩ (intentOf record.phase)).Serves deed doing
          (fun _ => []) session := serves_ensureActor session _ active
      refine hires.bind fun ensured later ran => ?_
      rcases ensured with ⟨number, isNew⟩
      have same : later.backend = session.backend := by
        cases ran
        rfl
      rw [← same] at others
      have adopts : ∀ {later : Session}, AreRecorded later.backend rest →
          (do return isNew || (← adopt rest) : Call Bool).Serves deed doing (fun _ => []) later :=
        fun others => (ih others).bind fun _ _ _ => serves_pure _ rfl
      cases isNew with
      | false => exact adopts others
      | true =>
          have nudges : (alter fun session : Session =>
              { session with
                engine := session.engine.nudge ⟨record.lattice, app⟩ .resync }).Serves deed doing
              (fun _ => []) later := serves_nudgeAll _ rfl
          refine nudges.bind fun _ nudged ran => ?_
          cases ran
          exact adopts others

theorem serves_rebalance {chores : Pending Nat → List Chore}
    (orderless : ∀ lost owned changed,
      Chore.orders (chores ⟨[.release lost owned changed], owned⟩) = []) :
    rebalance.Serves deed doing chores session := by
  refine (inquires_query _ _ session).andThen fun deployments listed => ?_
  have answered := query_eq_ok listed
  obtain rfl := Except.ok.inj answered
  refine (inquires_get session).andThen fun current _ => ?_
  refine (serves_adopt fun deployment member => ?_).bind fun changed adopting _ => ?_
  · exact areRecorded_listDeployments session.backend deployment (List.mem_of_mem_filter member)
  · exact (inquires_get adopting).andThen fun _ _ => serves_pure _ (orderless _ _ _)

theorem serves_setPartition (partition : Partition) :
    (setPartition partition).Serves deed doing Pending.chores session :=
  (serves_alter (Service.arranges session _ _ _ _ _ _ (Or.inr rfl)).serves).bind fun _ _ _ =>
    serves_rebalance fun _ _ _ => rfl

theorem serves_resync {chores : Pending Unit → List Chore}
    (orderless : ∀ lost owned changed,
      Chore.orders (chores ⟨[.release lost owned changed, .wakeAll], ()⟩) = []) :
    resync.Serves deed doing chores session := by
  refine Serves.map (serves_rebalance fun lost owned changed => ?_)
  exact orderless lost owned changed

theorem serves_start : start.Serves deed doing Pending.chores session :=
  Serves.map (serves_rebalance fun _ _ _ => rfl)

theorem serves_reapCommands {chores : Pending Unit → List Chore}
    (orderless : ∀ start report due,
      Chore.orders (chores ⟨[.resend start report due], ()⟩) = []) :
    reapCommands.Serves deed doing chores session := by
  rw [Serves]
  change session.Serves deed doing [] (Chore.orders (chores ⟨[.resend session.now
    (session.engine.dispatcher.beginSweep session.now).2.1
    (session.engine.dispatcher.beginSweep session.now).2.2], ()⟩)) _
  rw [orderless]
  exact serves_withDispatcher
    (session.engine.dispatcher.leads_perform (.beginSweep session.now))

theorem serves_shutdown (tends : deed.tendsLoops doing = true) :
    shutdown.Serves deed doing Pending.chores session := by
  have orderless : Chore.orders
      ((session.engine.maintenance.map Chore.awaitLoop).toList ++ [.stopAll]) = [] := by
    cases session.engine.maintenance <;> rfl
  rw [Serves]
  change session.Serves deed doing [] (Chore.orders
    ((session.engine.maintenance.map Chore.awaitLoop).toList ++ [.stopAll])) _
  rw [orderless]
  exact (Service.arranges session _ _ _ _ _ _ (Or.inl tends)).serves

theorem serves_acknowledge (ack : CommandAck) :
    (acknowledge ack).Serves deed doing (fun _ => []) session := by
  refine (inquires_get session).andThen fun current ran => ?_
  cases ran
  simp only
  have leads := session.engine.dispatcher.leads_perform (.acknowledge session.now ack)
  rcases acked : session.engine.dispatcher.onAck session.now ack with
    ⟨dispatcher, problem | outcome⟩
  · exact serves_throw _ _
  · have taken : session.Serves deed doing [] []
        ((session.withDispatcher dispatcher).publishAll (ackEvents ack outcome)) := by
      simp only [Dispatcher.perform, acked] at leads
      exact (serves_publishAll _).after (serves_withDispatcher leads)
    simp only
    split
    · exact (serves_nudgeAll _ rfl).after taken
    · exact taken

theorem serves_ingestStream (events : List LatticeEvent) :
    (ingestStream events).Serves deed doing (fun _ => []) session := by
  have ingested : session.Serves deed doing [] [] (session.ingestAll events).1 :=
    serves_ingestAll events
  exact (serves_of_dispatches (dispatches_reportFatal _ streamEnd)).after ingested

/-- A request comes to services, and what it orders is left for the chores that come of it. -/
theorem serves_request (request : Request) :
    request.call.Serves (.answer request) none id session := by
  cases request with
  | submit manifest => exact (serves_submit manifest rfl).pending
  | rollback app version => exact (serves_rollback app version rfl).pending
  | prune app keep => exact (serves_prune app keep).outright
  | deploy app version lattice => exact (serves_deploy app version lattice rfl).pending
  | undeploy app mode =>
      have asked : (Deed.answer (.undeploy app mode)).removed? = some app := rfl
      exact (serves_undeploy asked mode).pending
  | deleteApplication app =>
      have asked : (Deed.answer (.deleteApplication app)).removed? = some app := rfl
      exact (serves_deleteApplication asked).pending
  | listApplications => exact ((inquires_query _ _ session).serves _ fun _ _ => rfl).outright
  | listVersions app => exact ((inquires_query _ _ session).serves _ fun _ _ => rfl).outright
  | status app => exact ((inquires_status app session).serves _ fun _ _ => rfl).outright
  | ingest event => exact (serves_alter (serves_ingest event)).outright
  | ingestStream events => exact (serves_ingestStream events).outright
  | acknowledge ack => exact (serves_acknowledge ack).outright
  | reportFatal reason =>
      exact (serves_alter (serves_of_dispatches (session.dispatches_reportFatal reason))).outright
  | recover => exact (serves_alter (serves_recover rfl)).outright
  | setPartition partition => exact (serves_setPartition partition).pending
  | assign app =>
      exact (serves_alter (Service.arranges session _ _ _ _ _ _ (Or.inr rfl)).serves).outright
  | revoke app =>
      exact (serves_alter (Service.arranges session _ _ _ _ _ _ (Or.inr rfl)).serves).outright
  | rebalance => exact (serves_rebalance fun _ _ _ => rfl).pending
  | reapCommands => exact (serves_reapCommands fun _ _ _ => rfl).pending
  | reapHosts time => exact (serves_alter (serves_reapHosts time)).outright
  | resync => exact (serves_resync fun _ _ _ => rfl).pending
  | start => exact serves_start.pending
  | shutdown => exact (serves_shutdown rfl).pending

end Call

namespace Session

variable {deed : Deed} {doing : Option Chore} {session : Session}

/-- The orders that are left when something has been done: those of the chores that come of it. -/
def ordersLeft : Except ControlError (List Chore) → List Order
  | .ok chores => Chore.orders chores
  | .error _ => []

/-- Only what orders something itself leaves orders behind. -/
theorem ordersLeft_perform {chore : Chore} (unordered : chore.order? = none) :
    ordersLeft (session.perform chore).2 = [] := by
  cases chore with
  | deliver number trigger isWaiting =>
      have isNot : trigger.isOrder ≠ true := by
        intro isOrder
        simp [Chore.order?, isOrder] at unordered
      simp only [perform, deliver, ordersLeft]
      split
      · rfl
      · split
        · rfl
        · split
          · rfl
          · simp [Chore.orders, Chore.order?, isNot]
  | stop key =>
      simp only [perform, takeOff, ordersLeft]
      split <;> rfl
  | stopAll => simp [ordersLeft, perform, Chore.orders, Chore.order?, List.filterMap_map]
  | release keys owned changed =>
      cases keys with
      | nil => rfl
      | cons key keys =>
          simp only [perform, release, ordersLeft]
          split <;> rfl
  | resend start report keys =>
      cases keys with
      | nil => rfl
      | cons key keys =>
          simp only [perform, resendFirst, ordersLeft]
          split
          · rfl
          · simp only [Chore.orders, List.filterMap_append]
            split <;> rfl
  | offer start report command keys =>
      rw [perform]
      split <;> rfl
  | _ => rfl

theorem serves_release (keys : List ActorKey) (owned : Nat) (changed : Bool) :
    session.Serves deed doing [] [] (session.release owned changed keys).1 := by
  cases keys with
  | nil =>
      cases changed with
      | true => exact serves_publish _
      | false => exact .refl session
  | cons key keys =>
      rw [release]
      split <;> exact .refl session

theorem serves_resendFirst (start : Moment) (report : ReapReport) (key : IdempotencyKey)
    (keys : List IdempotencyKey) :
    session.Serves deed doing
      ((session.engine.dispatcher.reenter? start session.now key).map Prod.snd).toList []
      (session.resendFirst start report key keys).1 := by
  have leads := session.engine.dispatcher.leads_perform (.reenter start session.now key)
  rw [resendFirst]
  rcases reentered : session.engine.dispatcher.reenter? start session.now key with
    _ | ⟨dispatcher, command⟩
  · exact .refl session
  · simp only [Dispatcher.perform, reentered] at leads
    exact serves_withDispatcher leads

theorem serves_offer (start : Moment) (report : ReapReport) (command : Command)
    (keys : List IdempotencyKey) :
    session.Serves deed doing [] [] (session.perform (.offer start report command keys)).1 := by
  have transmitted := session.dispatches_transmit command
  rw [perform]
  rcases answer : session.transmit command with ⟨next, problem | outcome⟩
  · rw [answer] at transmitted
    exact (serves_of_dispatches (next.dispatches_noteDispatchError problem)).after
      (serves_of_dispatches transmitted)
  · rw [answer] at transmitted
    exact serves_of_dispatches transmitted

/-- A chore comes to services; what they order is left for the chores that come in its place. -/
theorem serves_perform (chore : Chore) :
    session.Serves deed (some chore) (session.resends? chore).toList
      (ordersLeft (session.perform chore).2) (session.perform chore).1 := by
  cases chore with
  | deliver number trigger isWaiting => exact (Service.delivers session rfl).serves
  | awaitEnd number => exact .refl session
  | stop key =>
      rw [ordersLeft_perform rfl]
      exact (Service.takesOff session key).serves
  | stopAll =>
      rw [ordersLeft_perform rfl]
      exact .refl session
  | release keys owned changed =>
      rw [ordersLeft_perform rfl]
      exact serves_release keys owned changed
  | wakeAll => exact serves_nudgeAll _ rfl
  | startLoop =>
      exact (Service.arranges session _ _ _ _ _ _ (Or.inl deed.tendsLoops_startLoop)).serves
  | awaitLoop number => exact .refl session
  | publish event => exact serves_publish event
  | resend start report keys =>
      rw [ordersLeft_perform rfl]
      cases keys with
      | nil => exact serves_publishAll _
      | cons key keys => exact serves_resendFirst start report key keys
  | offer start report command keys =>
      rw [ordersLeft_perform rfl]
      exact serves_offer start report command keys
  | rest time => exact .refl session

/-- A chore that offers a command once more need not wait for its turn. -/
theorem canDo_of_resends? {chore : Chore} {command : Command}
    (resends : session.resends? chore = some command) : session.canDo chore = true := by
  cases chore with
  | resend start report keys => rfl
  | _ => cases resends

theorem serves_putLoop (loop : MaintenanceLoop) (tends : deed.tendsLoops doing = true) :
    session.Serves deed doing [] [] (session.putLoop loop) :=
  (Service.arranges session _ _ _ _ _ _ (Or.inl tends)).serves

theorem serves_undertake (loop : MaintenanceLoop) {call : Call (Pending Unit)}
    (tends : deed.tendsLoops doing = true) (serves : call.Serves deed doing (fun _ => []) session) :
    session.Serves deed doing [] [] (session.undertake loop call) := by
  rw [undertake]
  rw [Call.Serves] at serves
  rcases ran : call.run session with ⟨problem | pending, next⟩
  · rw [ran] at serves
    exact (serves_putLoop loop tends).after serves
  · rw [ran] at serves
    exact (serves_putLoop _ tends).after serves

theorem serves_endLoop (loop : MaintenanceLoop) (tends : deed.tendsLoops doing = true) :
    session.Serves deed doing [] [] (session.endLoop loop) :=
  (Service.arranges session _ _ _ _ _ _ (Or.inl tends)).serves

theorem serves_beginDuty (loop : MaintenanceLoop) (timers : Timers)
    (tends : deed.tendsLoops doing = true) :
    session.Serves deed doing [] [] (session.beginDuty loop timers) := by
  rw [beginDuty]
  simp only
  split
  · exact serves_undertake _ tends (Call.serves_reapCommands fun _ _ _ => rfl)
  · split
    · have reaped : session.Serves deed doing [] [] (session.reapHosts session.now.wall).1 :=
        serves_reapHosts _
      rcases answered : session.reapHosts session.now.wall with ⟨next, _ | count⟩
      · rw [answered] at reaped
        exact (serves_endLoop loop tends).after reaped
      · rw [answered] at reaped
        exact (serves_putLoop _ tends).after reaped
    · split
      · exact serves_undertake _ tends (Call.serves_resync fun _ _ _ => rfl)
      · split
        · exact serves_endLoop loop tends
        · exact .refl session

theorem serves_moveOn (loop : MaintenanceLoop) (chore : Chore) (chores : List Chore)
    (tends : deed.tendsLoops (some chore) = true) :
    session.Serves deed (some chore) (session.resends? chore).toList
      (ordersLeft (session.perform chore).2) (session.moveOn loop chore chores) := by
  have served : session.Serves deed (some chore) _ _ _ := serves_perform chore
  rw [moveOn]
  rcases performed : session.perform chore with ⟨next, problem | more⟩
  · rw [performed] at served
    simpa using served.trans (serves_putLoop _ tends)
  · rw [performed] at served
    simpa using served.trans (serves_putLoop _ tends)

/-- A move of a loop comes to services; it orders nothing unless it waits to deliver an order. -/
theorem serves_moveLoop {number : Nat} {loop : MaintenanceLoop}
    (found : session.engine.loop? number = some loop) :
    ∃ orders, session.Serves (.moveLoop number) (session.chore? (.moveLoop number))
      (session.offers (.moveLoop number)) orders (session.moveLoop loop) ∧
      ((∀ chore, session.chore? (.moveLoop number) = some chore → chore.order? = none) →
        orders = []) := by
  have does : session.chore? (.moveLoop number) = loop.chores.head? := by
    rw [chore?, found, Option.bind_some]
  have offered : session.offers (.moveLoop number) =
      (loop.chores.head?.bind session.resends?).toList := by
    rw [← does]
    rfl
  rw [moveLoop, offered, does]
  split
  · rename_i chore chores loopChores
    rw [loopChores]
    simp only [List.head?_cons, Option.bind_some]
    split
    · exact ⟨_, serves_moveOn loop chore chores rfl,
        fun unordered => ordersLeft_perform (unordered chore rfl)⟩
    · rename_i cannot
      refine ⟨[], ?_, fun _ => rfl⟩
      cases resends : session.resends? chore with
      | none => exact .refl session
      | some command => exact absurd (canDo_of_resends? resends) cannot
  · rename_i loopChores noTimers
    rw [loopChores]
    exact ⟨[], serves_putLoop _ rfl, fun _ => rfl⟩
  · rename_i timers loopChores someTimers
    rw [loopChores]
    exact ⟨[], serves_beginDuty loop timers rfl, fun _ => rfl⟩

/--
All deeds but the moves of actors come to services. Unless they are to deliver an order, what they
order is left for the chores that come of them.
-/
theorem serves_afterDeed (session : Session) {deed : Deed}
    (still : ∀ number, deed ≠ .moveActor number) :
    ∃ orders, session.Serves deed (session.chore? deed) (session.offers deed) orders
      (session.afterDeed deed).1 ∧
      ((∀ chore, session.chore? deed = some chore → chore.order? = none) →
        orders = ordersLeft (session.afterDeed deed).2) := by
  cases deed with
  | answer request =>
      have served : request.call.Serves (.answer request) none id session :=
        Call.serves_request request
      refine ⟨_, served, fun _ => ?_⟩
      rw [afterDeed]
      rcases request.call.run session with ⟨_ | _, _⟩ <;> rfl
  | perform chore =>
      simp only [afterDeed, offers, chore?, Option.bind_some]
      split
      · exact ⟨_, serves_perform chore, fun _ => rfl⟩
      · rename_i cannot
        refine ⟨[], ?_, fun unordered => ?_⟩
        · cases resends : session.resends? chore with
          | none => exact .refl session
          | some command => exact absurd (canDo_of_resends? resends) cannot
        · simp [ordersLeft, Chore.orders, unordered chore rfl]
  | moveActor number => exact absurd rfl (still number)
  | moveLoop number =>
      rw [afterDeed]
      split
      · rename_i loop found
        exact serves_moveLoop found
      · rename_i missing
        refine ⟨[], ?_, fun _ => rfl⟩
        simp only [offers, chore?, missing, Option.bind_none, Option.toList_none]
        exact .refl session
  | turnSink failure delay =>
      exact ⟨_, (Service.arranges session _ _ _ _ _ _ (Or.inr rfl)).serves, fun _ => rfl⟩
  | turnStore outage =>
      have same : session.backend.Retains { session.backend with outage := outage } :=
        .refl session.backend
      exact ⟨_, serves_stores same, fun _ => rfl⟩

/-- A deed that does something is the move of an actor, or comes to services. -/
theorem conduct_or_serves_afterDeed (session : Session) (deed : Deed) :
    (∃ number actor, deed = .moveActor number ∧ session.engine.actor? number = some actor ∧
      session.Conduct actor (session.offers deed) (session.afterDeed deed).1) ∨
    ∃ orders, session.Serves deed (session.chore? deed) (session.offers deed) orders
      (session.afterDeed deed).1 := by
  by_cases moves : ∃ number, deed = .moveActor number
  · rcases moves with ⟨number, rfl⟩
    cases found : session.engine.actor? number with
    | some actor =>
        left
        refine ⟨number, actor, rfl, found, ?_⟩
        simp only [offers, afterDeed, found]
        exact session.conduct_moveActor actor
    | none =>
        right
        simp only [offers, afterDeed, found]
        exact ⟨_, .refl session⟩
  · rw [not_exists] at moves
    rcases session.serves_afterDeed moves with ⟨orders, serves, _⟩
    exact Or.inr ⟨orders, serves⟩

end Session

end Reconciler
