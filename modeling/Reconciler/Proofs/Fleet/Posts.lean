import Reconciler.Proofs.Fleet.Rosters

/-!
# Who mans the deployments

The post of a deployed application is the actor that it is to have. Whatever an engine does while
its applications stay its own, it takes on actors for its own applications only, and nobody leaves
the roster but by a chore to stop an actor. A new post comes only of a request to deploy an
application, which fills it at once. `Session.upholds_afterDeed` says so of every deed.
-/

namespace Reconciler

namespace Backend

variable {backend next : Backend} {app : AppName} {key : ActorKey}

/-- The actor that an application is to have, if it is deployed. -/
def post? (backend : Backend) (app : AppName) : Option ActorKey :=
  (backend.store.deployment? app).map fun record => ⟨record.lattice, app⟩

theorem SameDeployments.post? (same : backend.SameDeployments next) (app : AppName) :
    next.post? app = backend.post? app := by
  rw [Backend.post?, same app, ← Backend.post?]

theorem post?_eq_some_iff : backend.post? app = some key ↔
    ∃ record, backend.store.deployment? app = some record ∧ ⟨record.lattice, app⟩ = key := by
  rw [post?, Option.map_eq_some_iff]

theorem post?_setDeployment {store : Store} {record : DeploymentRecord}
    (recorded : backend.store.setDeployment app (some record) = .ok store) (other : AppName) :
    ({ backend with store := store } : Backend).post? other =
      if other = app then some ⟨record.lattice, app⟩ else backend.post? other := by
  rw [post?, Store.deployment?_setDeployment recorded]
  split
  · rename_i same
    rw [same]
    rfl
  · rfl

theorem post?_of_delete {other : AppName}
    (posted : ({ backend with store := (backend.store.delete app).1 } : Backend).post? other =
      some key) : backend.post? other = some key := by
  rw [post?, Store.deployment?_delete] at posted
  split at posted
  · cases posted
  · exact posted

end Backend

/-- The application that may be deployed anew when something is asked for. -/
def Request.deployed? : Request → Option AppName
  | deploy app .. => some app
  | _ => none

/-- Whether a request changes which applications are an engine's own. -/
def Request.splits : Request → Bool
  | setPartition _ => true
  | assign _ => true
  | revoke _ => true
  | _ => false

/-- The application that may be deployed anew through a deed. -/
def Deed.deployed? : Deed → Option AppName
  | answer request => request.deployed?
  | _ => none

/-- Whether a deed changes which applications are an engine's own. -/
def Deed.splits : Deed → Bool
  | answer request => request.splits
  | _ => false

/-- The actor that a chore takes off the roster, if it does that. -/
def Chore.stopped? : Chore → Option ActorKey
  | stop key => some key
  | _ => none

namespace Engine

variable {engine next : Engine}

/-- An engine has its own applications by its partition, or else by its assignment. -/
theorem owns_congr (partition : next.partition = engine.partition)
    (assignment : next.assignment = engine.assignment) (app : AppName) :
    next.owns app = engine.owns app := by
  rw [owns, owns, partition, assignment]

theorem contains_nudgeAll (engine : Engine) (test : ActorKey → Bool) (trigger : Trigger)
    (key : ActorKey) :
    (engine.nudgeAll test trigger).roster.contains key = engine.roster.contains key := by
  rw [SortedMap.contains_eq_isSome, SortedMap.contains_eq_isSome, nudgeAll,
    SortedMap.find?_mapValues, Option.isSome_map]

theorem contains_updateActor (engine : Engine) (number : Nat) (update : Actor → Actor)
    (key : ActorKey) :
    (engine.updateActor number update).roster.contains key = engine.roster.contains key := by
  rw [SortedMap.contains_eq_isSome, SortedMap.contains_eq_isSome, find?_updateActor,
    Option.isSome_map]

theorem contains_ensureActor (engine : Engine) (key : ActorKey) (intent : Intent)
    (other : ActorKey) : (engine.ensureActor key intent).1.roster.contains other =
      (engine.roster.contains other || other == key) := by
  rw [ensureActor]
  split
  · rename_i actor present
    by_cases same : other = key
    · subst same
      rw [SortedMap.contains_eq_isSome, present]
      rfl
    · simp [same]
  · rw [SortedMap.contains_eq_isSome, SortedMap.find?_insert, SortedMap.contains_eq_isSome]
    split
    · rename_i same
      simp [same]
    · rename_i different
      simp [different]

end Engine

namespace Session

variable {deployed : Option AppName} {stopped : Option ActorKey} {session next last : Session}
  {app : AppName} {key : ActorKey}

/-- Whether an engine has an actor at work. -/
def mans (session : Session) (key : ActorKey) : Bool :=
  session.engine.roster.contains key

/--
What becomes of the actors and posts of an engine while its applications stay its own: nobody
leaves the roster but perhaps one, only actors of own applications join it, and there are no new
posts but perhaps that of an application of its own, which is filled.
-/
structure Upholds (deployed : Option AppName) (stopped : Option ActorKey)
    (session next : Session) : Prop where
  owns : ∀ app, next.engine.owns app = session.engine.owns app
  kept : ∀ key, session.mans key = true → stopped ≠ some key → next.mans key = true
  hired : ∀ key, next.mans key = true → session.mans key = true ∨
    session.engine.owns key.app = true
  posted : ∀ app key, next.backend.post? app = some key → session.backend.post? app = some key ∨
    deployed = some app ∧ session.engine.owns app = true ∧ next.mans key = true

theorem Upholds.trans (upholds : session.Upholds deployed stopped next)
    (more : next.Upholds deployed none last) : session.Upholds deployed stopped last where
  owns app := (more.owns app).trans (upholds.owns app)
  kept key manned spared :=
    more.kept key (upholds.kept key manned spared) fun same => by cases same
  hired key manned := by
    rcases more.hired key manned with before | own
    · exact upholds.hired key before
    · exact Or.inr (upholds.owns key.app ▸ own)
  posted app key posted := by
    rcases more.posted app key posted with before | ⟨isDeployed, own, manned⟩
    · rcases upholds.posted app key before with first | ⟨isDeployed, own, manned⟩
      · exact Or.inl first
      · exact Or.inr ⟨isDeployed, own, more.kept key manned fun same => by cases same⟩
    · exact Or.inr ⟨isDeployed, upholds.owns app ▸ own, manned⟩

/-- Nothing happens to the split, the roster and the posts, but that posts may go. -/
theorem upholds_of_same (owns : ∀ app, next.engine.owns app = session.engine.owns app)
    (mans : ∀ key, next.mans key = session.mans key)
    (posts : ∀ app key, next.backend.post? app = some key →
      session.backend.post? app = some key) : session.Upholds deployed stopped next where
  owns := owns
  kept key manned _ := (mans key).trans manned
  hired key manned := Or.inl ((mans key).symm.trans manned)
  posted app key posted := Or.inl (posts app key posted)

theorem Upholds.refl (session : Session) : session.Upholds deployed stopped session :=
  upholds_of_same (fun _ => rfl) (fun _ => rfl) fun _ _ => id

theorem Dispatches.upholds {offered : List Command} (dispatches : session.Dispatches offered next) :
    session.Upholds deployed stopped next := by
  refine upholds_of_same ?_ (fun key => ?_) fun app key posted => ?_
  · exact Engine.owns_congr dispatches.crew.partition dispatches.crew.assignment
  · rw [mans, dispatches.crew.roster, ← mans]
  · rwa [dispatches.backend] at posted

theorem upholds_stores {backend : Backend}
    (posts : ∀ app key, backend.post? app = some key → session.backend.post? app = some key) :
    session.Upholds deployed stopped { session with backend := backend } :=
  upholds_of_same (fun _ => rfl) (fun _ => rfl) posts

theorem upholds_publish (event : ControlEvent) :
    session.Upholds deployed stopped (session.publish event) :=
  (session.dispatches_publish event).upholds

theorem upholds_publishAll (events : List ControlEvent) :
    session.Upholds deployed stopped (session.publishAll events) := by
  induction events generalizing session stopped with
  | nil => exact .refl session
  | cons event events ih => exact (upholds_publish event).trans ih

theorem upholds_withDispatcher (dispatcher : Dispatcher) :
    session.Upholds deployed stopped (session.withDispatcher dispatcher) :=
  upholds_of_same (fun _ => rfl) (fun _ => rfl) fun _ _ => id

theorem upholds_nudgeAll (test : ActorKey → Bool) (trigger : Trigger) :
    session.Upholds deployed stopped
      { session with engine := session.engine.nudgeAll test trigger } :=
  upholds_of_same (fun _ => rfl) (session.engine.contains_nudgeAll test trigger) fun _ _ => id

theorem upholds_nudge (key : ActorKey) (trigger : Trigger) :
    session.Upholds deployed stopped
      { session with engine := session.engine.nudge key trigger } :=
  upholds_nudgeAll _ trigger

theorem upholds_updateActor (number : Nat) (update : Actor → Actor) :
    session.Upholds deployed stopped
      { session with engine := session.engine.updateActor number update } :=
  upholds_of_same (fun _ => rfl) (session.engine.contains_updateActor number update) fun _ _ => id

theorem upholds_putLoop (loop : MaintenanceLoop) :
    session.Upholds deployed stopped (session.putLoop loop) :=
  upholds_of_same (fun _ => rfl) (fun _ => rfl) fun _ _ => id

theorem upholds_ensureActor (owned : session.engine.owns key.app = true) (intent : Intent) :
    session.Upholds deployed stopped
      { session with engine := (session.engine.ensureActor key intent).1 } where
  owns := by
    rw [Engine.ensureActor]
    split <;> exact fun _ => rfl
  kept other manned _ := by
    rw [mans] at manned
    rw [mans, Engine.contains_ensureActor, manned, Bool.true_or]
  hired other manned := by
    rw [mans, Engine.contains_ensureActor, Bool.or_eq_true, beq_iff_eq] at manned
    rcases manned with before | rfl
    · exact Or.inl before
    · exact Or.inr owned
  posted _ _ := Or.inl

theorem upholds_observe (event : LatticeEvent) :
    session.Upholds deployed stopped (session.observe event) := by
  rw [observe]
  split
  · exact .refl session
  · exact upholds_withDispatcher _

theorem upholds_ingest (event : LatticeEvent) :
    session.Upholds deployed stopped (session.ingest event).1 := by
  have projected : session.Upholds deployed stopped
      { session with backend := { session.backend with
        projector := (session.backend.projector.apply event).1 } } :=
    upholds_stores fun _ _ => id
  rw [ingest]
  simp only
  split
  · exact (projected.trans (upholds_observe event)).trans (upholds_nudgeAll _ _)
  · exact projected

theorem upholds_ingestAll (events : List LatticeEvent) :
    session.Upholds deployed stopped (session.ingestAll events).1 := by
  induction events generalizing session stopped with
  | nil => exact .refl session
  | cons event events ih => exact (upholds_ingest event).trans ih

theorem upholds_reapHosts (time : Timestamp) :
    session.Upholds deployed stopped (session.reapHosts time).1 := by
  have projected : ∀ projector, session.Upholds deployed stopped
      { session with backend := { session.backend with projector := projector } } :=
    fun projector => upholds_stores fun _ _ => id
  have noted : ∀ (reaped : List (LatticeId × HostId)) (session : Session),
      session.Upholds deployed none
        (reaped.foldl
          (fun session expired =>
            (session.notify expired.1 .lattice).publish (.hostExpired expired.1 expired.2))
          session) := by
    intro reaped
    induction reaped with
    | nil => exact .refl
    | cons head reaped ih =>
        intro session
        exact ((upholds_nudgeAll _ _).trans (upholds_publish _)).trans (ih _)
  rw [reapHosts]
  simp only
  split
  · exact projected _
  · exact (projected _).trans (noted _ _)

theorem upholds_recover : session.Upholds deployed stopped session.recover := by
  rw [recover]
  split
  · exact .refl session
  · have healthy : session.Upholds deployed stopped
        { session with engine := { session.engine with health := .healthy } } :=
      upholds_of_same (fun _ => rfl) (fun _ => rfl) fun _ _ => id
    exact (healthy.trans (upholds_publish _)).trans (upholds_nudgeAll _ _)

end Session

namespace Call

open Session

variable {α β : Type} {deployed : Option AppName} {session later : Session} {app : AppName}

/-- A call keeps to the applications, actors and posts of an engine. -/
def Upholds (call : Call α) (deployed : Option AppName) (session : Session) : Prop :=
  session.Upholds deployed none (call.run session).2

theorem Upholds.bind {call : Call α} {next : α → Call β} (first : call.Upholds deployed session)
    (rest : ∀ value later, call.run session = (.ok value, later) →
      session.Upholds deployed none later → (next value).Upholds deployed later) :
    (call >>= next).Upholds deployed session := by
  rw [Upholds, run_bind]
  rcases ran : call.run session with ⟨problem | value, later⟩
  · rw [Upholds, ran] at first
    exact first
  · rw [Upholds, ran] at first
    exact first.trans (rest value later ran first)

theorem upholds_pure (value : α) : (pure value : Call α).Upholds deployed session :=
  Session.Upholds.refl session

theorem Upholds.map {call : Call α} (upholds : call.Upholds deployed session) {answer : α → β} :
    (call >>= fun value => pure (answer value)).Upholds deployed session :=
  upholds.bind fun _ _ _ _ => upholds_pure _

theorem Upholds.outright {call : Call α} (upholds : call.Upholds deployed session) :
    call.outright.Upholds deployed session :=
  upholds.bind fun _ _ _ _ => upholds_pure _

theorem Inquires.upholds {call : Call α} (inquires : call.Inquires session) :
    call.Upholds deployed session :=
  inquires.dispatches.upholds

/-- A call that only asks something comes first. -/
theorem Upholds.after {call : Call α} {next : α → Call β} (inquires : call.Inquires session)
    (rest : ∀ value, call.run session = (.ok value, session) →
      (next value).Upholds deployed session) :
    (call >>= next).Upholds deployed session :=
  inquires.upholds.bind fun value later ran _ => by
    obtain rfl := inquires.same ran
    exact rest value ran

theorem upholds_throw (problem : ControlError) :
    (throw problem : Call α).Upholds deployed session :=
  (inquires_throw problem session).upholds

theorem upholds_publish (event : ControlEvent) : (publish event).Upholds deployed session :=
  Session.upholds_publish event

theorem upholds_alter {change : Session → Session}
    (upholds : session.Upholds deployed none (change session)) :
    (alter change).Upholds deployed session :=
  upholds

theorem upholds_change {request : StoreRequest} {answer : Store → Except StoreError (Store × α)}
    (same : ∀ {store value}, answer session.backend.store = .ok (store, value) →
      ∀ app key, ({ session.backend with store := store } : Backend).post? app = some key →
        session.backend.post? app = some key) :
    (change request answer).Upholds deployed session := by
  rw [Upholds]
  rcases ran : (change request answer).run session with ⟨problem | value, later⟩
  · exact (dispatches_of_change_error ran).upholds
  · rcases change_eq_ok ran with ⟨store, answered, rfl⟩
    exact upholds_stores (same answered)

/-- A change of the store that leaves all deployments as they are. -/
theorem upholds_change_of_same {request : StoreRequest}
    {answer : Store → Except StoreError (Store × α)}
    (same : ∀ {store value}, answer session.backend.store = .ok (store, value) →
      session.backend.SameDeployments { session.backend with store := store }) :
    (change request answer).Upholds deployed session :=
  upholds_change fun answered app key posted => by
    rwa [(same answered).post? app] at posted

theorem owns_of_ensureOwned (passed : (ensureOwned app).run session = (.ok (), later)) :
    session.engine.owns app = true := by
  by_contra foreign
  have failed : (ensureOwned app).run session =
      (.error (.notAssigned app session.engine.name), session) := by
    rw [ensureOwned, run_bind]
    change (if session.engine.owns app then pure ()
      else throw (.notAssigned app session.engine.name) : Call Unit).run session = _
    rw [if_neg foreign]
    rfl
  cases failed.symm.trans passed

theorem upholds_trigger {key : ActorKey} (owned : session.engine.owns key.app = true)
    (intent : Intent) (cause : Trigger) : (trigger key intent cause).Upholds deployed session :=
  upholds_ensureActor owned intent

theorem upholds_triggerDeployed (owned : session.engine.owns app = true) (cause : Trigger) :
    (triggerDeployed app cause).Upholds deployed session := by
  refine .after (inquires_deployment? app session) fun deployment _ => ?_
  rcases deployment with _ | ⟨lattice, _ | _, updatedAt⟩
  · exact upholds_pure _
  · exact upholds_trigger owned .converge cause
  · exact upholds_pure _

theorem upholds_submit (manifest : Manifest) : (submit manifest).Upholds deployed session := by
  refine .after (inquires_ensureHealthy session) fun _ _ => ?_
  refine .after (inquires_ensureOwned manifest.name session) fun _ passed => ?_
  have owned := owns_of_ensureOwned passed
  refine .after (inquires_get session) fun current _ => ?_
  refine (upholds_change_of_same fun stored => Store.deployment?_put stored).bind
    fun version stored _ storing => ?_
  refine (upholds_publish _).bind fun _ published _ publishing => ?_
  have stillOwned : published.engine.owns manifest.name = true := by
    rw [publishing.owns, storing.owns, owned]
  exact (upholds_triggerDeployed stillOwned .deploy).map

theorem upholds_rollbackStore (app : AppName) (version : String) :
    (rollbackStore app version).Upholds deployed session :=
  upholds_change_of_same fun current => Store.deployment?_rollback current

theorem upholds_rollback (app : AppName) (version : String) :
    (rollback app version).Upholds deployed session := by
  refine .after (inquires_ensureHealthy session) fun _ _ => ?_
  refine .after (inquires_ensureOwned app session) fun _ passed => ?_
  have owned := owns_of_ensureOwned passed
  refine (upholds_rollbackStore app version).bind fun manifest stored _ storing => ?_
  refine (upholds_publish _).bind fun _ published _ publishing => ?_
  have stillOwned : published.engine.owns app = true := by
    rw [publishing.owns, storing.owns, owned]
  exact (upholds_triggerDeployed stillOwned .rollback).map

theorem upholds_prune (app : AppName) (keep : Nat) : (prune app keep).Upholds deployed session := by
  refine .after (inquires_ensureOwned app session) fun _ _ => ?_
  exact upholds_change_of_same fun pruned => Store.deployment?_prune pruned

theorem upholds_selectVersion (app : AppName) (version : Option String) :
    (selectVersion app version).Upholds deployed session := by
  refine .after (inquires_query _ _ session) fun current _ => ?_
  cases version with
  | none => exact upholds_pure _
  | some version =>
      simp only
      split
      · exact upholds_pure _
      · exact upholds_rollbackStore app version

/-- A deployment is recorded, and right after that the application has its actor. -/
theorem upholds_post (owned : session.engine.owns app = true) {lattice : LatticeId}
    {store : Store} {record : DeploymentRecord} (here : record.lattice = lattice)
    (recorded : session.backend.store.setDeployment app (some record) = .ok store)
    (intent : Intent) :
    session.Upholds (some app) none
      { session with
        backend := { session.backend with store := store }
        engine := (session.engine.ensureActor ⟨lattice, app⟩ intent).1 } := by
  have hires : session.Upholds (some app) none
      { session with engine := (session.engine.ensureActor ⟨lattice, app⟩ intent).1 } :=
    upholds_ensureActor owned intent
  refine ⟨hires.owns, hires.kept, hires.hired, fun other key posted => ?_⟩
  rw [Backend.post?_setDeployment recorded] at posted
  split at posted
  · rename_i same
    obtain rfl := Option.some.inj posted
    refine Or.inr ⟨by rw [same], same ▸ owned, ?_⟩
    rw [mans, Engine.contains_ensureActor, here, beq_self_eq_true, Bool.or_true]
  · exact Or.inl posted

theorem upholds_deploy (app : AppName) (version : Option String) (lattice : LatticeId) :
    (deploy app version lattice).Upholds (some app) session := by
  refine .after (inquires_ensureHealthy session) fun _ _ => ?_
  refine .after (inquires_ensureOwned app session) fun _ passed => ?_
  have owned := owns_of_ensureOwned passed
  refine .after (inquires_ensureDeployable app lattice session) fun _ _ => ?_
  refine (upholds_selectVersion app version).bind fun manifest selected _ selecting => ?_
  refine .after (inquires_get selected) fun current _ => ?_
  -- The post is not filled before the next part of the call, so both are taken together.
  rw [Upholds, run_bind]
  rcases ran : (setDeployment app ⟨lattice, .active, current.now.wall⟩).run selected with
    ⟨problem | _, recording⟩
  · exact (dispatches_of_change_error ran).upholds
  · rcases setDeployment_eq_ok ran with ⟨store, recorded, rfl⟩
    exact upholds_post ((selecting.owns app).trans owned) rfl recorded .converge

theorem upholds_undeploy (app : AppName) (mode : UndeployMode) :
    (undeploy app mode).Upholds deployed session := by
  refine .after (inquires_ensureHealthy session) fun _ _ => ?_
  refine .after (inquires_ensureOwned app session) fun _ passed => ?_
  have owned := owns_of_ensureOwned passed
  refine .after (inquires_deployment? app session) fun deployment found => ?_
  have recorded := deployment?_eq_ok found
  cases deployment with
  | none => exact upholds_throw _
  | some record =>
      have begins : (beginRemoval app record.lattice mode).Upholds deployed session := by
        cases mode with
        | force =>
            refine (upholds_change fun deleted app key posted => ?_).bind
              fun _ _ _ _ => upholds_publish _
            cases deleted
            exact Backend.post?_of_delete posted
        | graceful =>
            refine upholds_change fun {store _} answered other key posted => ?_
            cases stored : session.backend.store.setDeployment app
                (some ⟨record.lattice, .undeploying, session.now.wall⟩) with
            | error problem => simp [stored, Except.map] at answered
            | ok next =>
                simp only [stored, Except.map, Except.ok.injEq, Prod.mk.injEq, and_true]
                  at answered
                subst answered
                -- The application stays at its post while it is removed.
                rw [Backend.post?_setDeployment stored] at posted
                split at posted
                · rename_i same
                  rw [same, Backend.post?, recorded, Option.map_some]
                  exact posted
                · exact posted
      refine begins.bind fun _ begun _ beginning => ?_
      have stillOwned : begun.engine.owns app = true := by rw [beginning.owns, owned]
      have triggers : (trigger ⟨record.lattice, app⟩ (.teardown mode) (.undeploy mode)).Upholds
          deployed begun := upholds_trigger stillOwned _ _
      exact triggers.map

theorem upholds_deleteApplication (app : AppName) :
    (deleteApplication app).Upholds deployed session := by
  refine .after (inquires_ensureHealthy session) fun _ _ => ?_
  refine .after (inquires_ensureOwned app session) fun _ _ => ?_
  refine .after (inquires_deployment? app session) fun deployment _ => ?_
  cases deployment with
  | some record =>
      rw [Option.isSome_some, if_pos rfl]
      exact (upholds_undeploy app .force).map
  | none =>
      refine (upholds_change fun deleted app key posted => ?_).bind fun existed _ _ _ => ?_
      · cases deleted
        exact Backend.post?_of_delete posted
      · cases existed with
        | false => exact upholds_pure _
        | true => exact (upholds_publish _).bind fun _ _ _ _ => upholds_pure _

theorem upholds_adopt {deployments : List (AppName × DeploymentRecord)}
    (own : ∀ deployment ∈ deployments, session.engine.owns deployment.1 = true) :
    (adopt deployments).Upholds deployed session := by
  induction deployments generalizing session with
  | nil => exact upholds_pure _
  | cons deployment rest ih =>
      rcases deployment with ⟨app, record⟩
      rw [List.forall_mem_cons] at own
      have hires : (ensureActor ⟨record.lattice, app⟩ (intentOf record.phase)).Upholds deployed
          session := upholds_ensureActor own.1 _
      refine hires.bind fun ensured hired _ hiring => ?_
      have adopts : ∀ {later : Session}, session.Upholds deployed none later →
          (do return ensured.2 || (← adopt rest) : Call Bool).Upholds deployed later :=
        fun {later} upheld => (ih fun deployment member =>
          (upheld.owns deployment.1).trans (own.2 deployment member)).map
      rcases ensured with ⟨number, _ | _⟩
      · exact adopts hiring
      · have nudges : (alter fun session : Session =>
            { session with
              engine := session.engine.nudge ⟨record.lattice, app⟩ .resync }).Upholds deployed
            hired := upholds_nudge _ _
        exact nudges.bind fun _ _ _ nudging => adopts (hiring.trans nudging)

theorem upholds_rebalance : rebalance.Upholds deployed session := by
  refine .after (inquires_query _ _ session) fun deployments _ => ?_
  refine .after (inquires_get session) fun current ran => ?_
  cases ran
  have adopts : (adopt (deployments.filter fun deployment =>
      session.engine.owns deployment.1)).Upholds deployed session :=
    upholds_adopt fun deployment member => (List.mem_filter.mp member).2
  exact adopts.bind fun _ adopted _ _ => .after (inquires_get adopted) fun _ _ => upholds_pure _

theorem upholds_resync : resync.Upholds deployed session :=
  upholds_rebalance.map

theorem upholds_start : start.Upholds deployed session :=
  upholds_rebalance.map

theorem upholds_reapCommands : reapCommands.Upholds deployed session :=
  .after (inquires_get session) fun current ran => by
    cases ran
    exact upholds_withDispatcher _

theorem upholds_shutdown : shutdown.Upholds deployed session :=
  upholds_of_same (fun _ => rfl) (fun _ => rfl) fun _ _ => id

theorem upholds_acknowledge (ack : CommandAck) : (acknowledge ack).Upholds deployed session := by
  refine .after (inquires_get session) fun current ran => ?_
  cases ran
  simp only
  rcases acked : session.engine.dispatcher.onAck session.now ack with
    ⟨dispatcher, problem | outcome⟩
  · exact upholds_throw _
  · have taken : session.Upholds deployed none
        ((session.withDispatcher dispatcher).publishAll (ackEvents ack outcome)) :=
      (upholds_withDispatcher dispatcher).trans (upholds_publishAll _)
    simp only
    split
    · exact taken.trans (upholds_nudge _ _)
    · exact taken

theorem upholds_ingestStream (events : List LatticeEvent) :
    (ingestStream events).Upholds deployed session := by
  have ingested : session.Upholds deployed none (session.ingestAll events).1 :=
    upholds_ingestAll events
  exact ingested.trans (dispatches_reportFatal _ streamEnd).upholds

/-- Unless it changes the split, a request keeps to the applications, actors and posts. -/
theorem upholds_request {request : Request} (steady : request.splits = false) :
    request.call.Upholds request.deployed? session := by
  cases request with
  | submit manifest => exact (upholds_submit manifest).map
  | rollback app version => exact (upholds_rollback app version).map
  | prune app keep => exact (upholds_prune app keep).outright
  | deploy app version lattice => exact (upholds_deploy app version lattice).map
  | undeploy app mode => exact (upholds_undeploy app mode).map
  | deleteApplication app => exact (upholds_deleteApplication app).map
  | listApplications => exact (inquires_query _ _ session).upholds.outright
  | listVersions app => exact (inquires_query _ _ session).upholds.outright
  | status app => exact (inquires_status app session).upholds.outright
  | ingest event => exact (upholds_alter (upholds_ingest event)).outright
  | ingestStream events => exact (upholds_ingestStream events).outright
  | acknowledge ack => exact (upholds_acknowledge ack).outright
  | reportFatal reason =>
      exact (upholds_alter (session.dispatches_reportFatal reason).upholds).outright
  | recover => exact (upholds_alter upholds_recover).outright
  | setPartition partition => cases steady
  | assign app => cases steady
  | revoke app => cases steady
  | rebalance => exact upholds_rebalance.map
  | reapCommands => exact upholds_reapCommands.map
  | reapHosts time => exact (upholds_alter (upholds_reapHosts time)).outright
  | resync => exact upholds_resync.map
  | start => exact upholds_start.map
  | shutdown => exact upholds_shutdown.map

end Call

namespace Session

variable {deployed : Option AppName} {stopped : Option ActorKey} {session next : Session}
  {key : ActorKey}

theorem mans_takeOff (session : Session) (key other : ActorKey) :
    (session.takeOff key).1.mans other = (session.mans other && other != key) := by
  rw [mans, mans, SortedMap.contains_eq_isSome, SortedMap.contains_eq_isSome, find?_takeOff]
  split
  · rename_i same
    simp [same]
  · rename_i different
    simp [different]

theorem upholds_takeOff (key : ActorKey) :
    session.Upholds deployed (some key) (session.takeOff key).1 where
  owns := by
    rcases session.exists_takeOff_eq key with ⟨roster, leaving, same⟩
    rw [same]
    exact fun _ => rfl
  kept other manned spared := by
    have different : other ≠ key := fun same => spared (congrArg some same.symm)
    rw [mans_takeOff, manned, Bool.true_and, bne_iff_ne]
    exact different
  hired other manned := by
    rw [mans_takeOff, Bool.and_eq_true] at manned
    exact Or.inl manned.1
  posted app other posted := by
    rcases session.exists_takeOff_eq key with ⟨roster, leaving, same⟩
    rw [same] at posted
    exact Or.inl posted

theorem upholds_deliver (number : Nat) (trigger : Trigger) (isWaiting : Bool) :
    session.Upholds deployed stopped (session.deliver number trigger isWaiting).1 := by
  rcases session.deliver_cases number trigger isWaiting with
    ⟨_, same⟩ | ⟨update, _, _, same, _⟩
  · rw [same]
    exact .refl session
  · rw [same]
    exact upholds_updateActor number update

theorem upholds_release (keys : List ActorKey) (owned : Nat) (changed : Bool) :
    session.Upholds deployed stopped (session.release owned changed keys).1 := by
  cases keys with
  | nil =>
      cases changed with
      | true => exact upholds_publish _
      | false => exact .refl session
  | cons key keys =>
      rw [release]
      split <;> exact .refl session

theorem upholds_resendFirst (start : Moment) (report : ReapReport) (key : IdempotencyKey)
    (keys : List IdempotencyKey) :
    session.Upholds deployed stopped (session.resendFirst start report key keys).1 := by
  rw [resendFirst]
  split
  · exact .refl session
  · exact upholds_withDispatcher _

theorem upholds_offer (start : Moment) (report : ReapReport) (command : Command)
    (keys : List IdempotencyKey) :
    session.Upholds deployed stopped (session.perform (.offer start report command keys)).1 := by
  have transmitted := session.dispatches_transmit command
  rw [perform]
  rcases answer : session.transmit command with ⟨next, problem | outcome⟩
  · rw [answer] at transmitted
    exact (transmitted.trans (next.dispatches_noteDispatchError problem)).upholds
  · rw [answer] at transmitted
    exact transmitted.upholds

/-- Only a chore to stop an actor takes one off the roster. -/
theorem upholds_perform (chore : Chore) :
    session.Upholds deployed chore.stopped? (session.perform chore).1 := by
  cases chore with
  | deliver number trigger isWaiting => exact upholds_deliver number trigger isWaiting
  | stop key => exact upholds_takeOff key
  | release keys owned changed => exact upholds_release keys owned changed
  | wakeAll => exact upholds_nudgeAll _ _
  | startLoop => exact upholds_of_same (fun _ => rfl) (fun _ => rfl) fun _ _ => id
  | publish event => exact upholds_publish event
  | resend start report keys =>
      cases keys with
      | nil => exact upholds_publishAll _
      | cons key keys => exact upholds_resendFirst start report key keys
  | offer start report command keys => exact upholds_offer start report command keys
  | _ => exact .refl session

/-- A move of an actor makes no new post, and changes nothing else but the actor. -/
theorem Conduct.upholds {actor : Actor} {offered : List Command}
    (conduct : session.Conduct actor offered next) : session.Upholds deployed stopped next := by
  cases conduct with
  | waits => exact .refl session
  | absorbs takes background => exact upholds_updateActor _ _
  | ends wakes ending => exact upholds_of_same (fun _ => rfl) (fun _ => rfl) fun _ _ => id
  | declines wakes lasting dispatches status =>
      exact dispatches.upholds.trans (upholds_updateActor _ _)
  | settles engaged dispatches tires status =>
      exact dispatches.upholds.trans (upholds_updateActor _ _)
  | sends engaged dispatches => exact dispatches.upholds.trans (upholds_updateActor _ _)
  | erases engaged before untouched erases after status =>
      refine ((before.trans after).upholds.trans (upholds_stores fun app key posted => ?_)).trans
        (upholds_updateActor _ _)
      rcases erases.deleted with ⟨existed, deleted⟩
      rcases Backend.change_eq_ok deleted with ⟨store, stored, rfl⟩
      cases stored
      rw [after.backend]
      exact Backend.post?_of_delete posted

theorem upholds_undertake (loop : MaintenanceLoop) {call : Call (Pending Unit)}
    (upholds : call.Upholds deployed session) :
    session.Upholds deployed none (session.undertake loop call) := by
  rw [undertake]
  rw [Call.Upholds] at upholds
  rcases ran : call.run session with ⟨problem | pending, next⟩
  · rw [ran] at upholds
    exact upholds.trans (upholds_putLoop _)
  · rw [ran] at upholds
    exact upholds.trans (upholds_putLoop _)

theorem upholds_endLoop (loop : MaintenanceLoop) :
    session.Upholds deployed none (session.endLoop loop) :=
  upholds_of_same (fun _ => rfl) (fun _ => rfl) fun _ _ => id

theorem upholds_beginDuty (loop : MaintenanceLoop) (timers : Timers) :
    session.Upholds deployed none (session.beginDuty loop timers) := by
  rw [beginDuty]
  simp only
  split
  · exact upholds_undertake _ Call.upholds_reapCommands
  · split
    · have reaped : session.Upholds deployed none (session.reapHosts session.now.wall).1 :=
        upholds_reapHosts _
      rcases answered : session.reapHosts session.now.wall with ⟨next, _ | count⟩
      · rw [answered] at reaped
        exact reaped.trans (upholds_endLoop loop)
      · rw [answered] at reaped
        exact reaped.trans (upholds_putLoop _)
    · split
      · exact upholds_undertake _ Call.upholds_resync
      · split
        · exact upholds_endLoop loop
        · exact .refl session

theorem upholds_moveOn (loop : MaintenanceLoop) (chore : Chore) (chores : List Chore) :
    session.Upholds deployed chore.stopped? (session.moveOn loop chore chores) := by
  have performed : session.Upholds deployed chore.stopped? (session.perform chore).1 :=
    upholds_perform chore
  rw [moveOn]
  rcases done : session.perform chore with ⟨next, problem | more⟩
  · rw [done] at performed
    exact performed.trans (upholds_putLoop _)
  · rw [done] at performed
    exact performed.trans (upholds_putLoop _)

theorem upholds_moveLoop (loop : MaintenanceLoop) :
    session.Upholds deployed (loop.chores.head?.bind Chore.stopped?) (session.moveLoop loop) := by
  rw [moveLoop]
  split
  · rename_i chore chores loopChores
    rw [loopChores]
    split
    · exact upholds_moveOn loop chore chores
    · exact .refl session
  · exact upholds_putLoop _
  · rename_i timers loopChores someTimers
    rw [loopChores]
    exact upholds_beginDuty loop timers

/--
Unless it changes the split, a deed keeps to the applications and posts of an engine, and only a
chore to stop an actor takes one off the roster.
-/
theorem upholds_afterDeed (session : Session) {deed : Deed} (steady : deed.splits = false) :
    session.Upholds deed.deployed? ((session.chore? deed).bind Chore.stopped?)
      (session.afterDeed deed).1 := by
  cases deed with
  | answer request => exact Call.upholds_request steady
  | perform chore =>
      rw [afterDeed]
      split
      · exact upholds_perform chore
      · exact .refl session
  | moveActor number =>
      rw [afterDeed]
      split
      · rename_i actor found
        exact (session.conduct_moveActor actor).upholds
      · exact .refl session
  | moveLoop number =>
      rw [afterDeed, chore?]
      split
      · rename_i loop found
        rw [found]
        exact upholds_moveLoop loop
      · exact .refl session
  | turnSink failure delay => exact upholds_of_same (fun _ => rfl) (fun _ => rfl) fun _ _ => id
  | turnStore outage => exact upholds_stores fun _ _ => id

/-- Only a request to deploy one of its own applications has an engine make a new post. -/
theorem posted_afterDeed (session : Session) (deed : Deed) {app : AppName}
    (posted : (session.afterDeed deed).1.backend.post? app = some key) :
    session.backend.post? app = some key ∨
      deed.deployed? = some app ∧ session.engine.owns app = true := by
  cases splits : deed.splits with
  | false =>
      rcases (session.upholds_afterDeed splits).posted app key posted with
        before | ⟨isDeployed, own, _⟩
      · exact Or.inl before
      · exact Or.inr ⟨isDeployed, own⟩
  | true =>
      cases deed with
      | answer request =>
          cases request with
          | setPartition partition =>
              let parted : Session :=
                { session with engine := { session.engine with partition := some partition } }
              have rebalances : parted.Upholds none none
                  (session.afterDeed (.answer (.setPartition partition))).1 := by
                have first : Call.rebalance.Upholds none parted := Call.upholds_rebalance
                exact first.map
              rcases rebalances.posted app key posted with before | ⟨isDeployed, _⟩
              · exact Or.inl before
              · cases isDeployed
          | assign app => exact Or.inl posted
          | revoke app => exact Or.inl posted
          | _ => cases splits
      | _ => cases splits

end Session

end Reconciler
