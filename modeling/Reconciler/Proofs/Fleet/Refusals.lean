import Reconciler.Proofs.Fleet.Errands
import Reconciler.Proofs.Store.Operations

/-!
# Refusals

As long as the store is in reach, what is asked of manifests and deployments is refused before
anything is done about it: every check comes before the first effect, and after the first effect
nothing fails any more, neither in the call itself nor in what it leaves to do.
-/

namespace Reconciler

/-- An answer of a store, which may be an error, but not one that makes an engine stop. -/
def Mild {α : Type} (answer : Except StoreError α) : Prop :=
  ∀ problem, answer = .error problem → problem.isFatal = false

section Mild

variable {α β : Type}

theorem mild_ok (value : α) : Mild (.ok value) := by
  intro problem failed
  cases failed

theorem mild_error {problem : StoreError} (mild : problem.isFatal = false) :
    Mild (.error problem : Except StoreError α) := by
  intro other failed
  cases failed
  exact mild

theorem Mild.bind {first : Except StoreError α} {next : α → Except StoreError β}
    (mild : Mild first) (rest : ∀ value, Mild (next value)) : Mild (first >>= next) := by
  cases first with
  | error problem => exact mild_error (mild problem rfl)
  | ok value => exact rest value

theorem Mild.map {answer : Except StoreError α} (mild : Mild answer) (change : α → β) :
    Mild (answer.map change) := by
  cases answer with
  | error problem => exact mild_error (mild problem rfl)
  | ok value => exact mild_ok _

end Mild

namespace Store

theorem mild_record? (store : Store) (app : AppName) : Mild (store.record? app) := by
  rw [record?]
  split
  · exact mild_ok _
  · exact mild_error rfl

theorem mild_put (store : Store) (now : Timestamp) (app : AppName) (manifest : Manifest) :
    Mild (store.put now app manifest) := by
  rw [put]
  split
  · exact mild_error rfl
  · split
    · exact mild_error rfl
    · simp only
      split
      · exact mild_ok _
      · split
        · exact mild_error rfl
        · exact mild_ok _

theorem mild_getCurrent (store : Store) (app : AppName) : Mild (store.getCurrent app) := by
  refine (store.mild_record? app).bind fun record => ?_
  split
  · exact mild_ok _
  · exact mild_error rfl

theorem mild_rollback (store : Store) (app : AppName) (version : String) :
    Mild (store.rollback app version) := by
  refine (store.mild_record? app).bind fun record => ?_
  split
  · exact mild_ok _
  · exact mild_error rfl

theorem mild_prune (store : Store) (app : AppName) (keep : Nat) : Mild (store.prune app keep) :=
  (store.mild_record? app).bind fun _ => mild_ok _

theorem mild_setDeployment (store : Store) (app : AppName) (deployment : Option DeploymentRecord) :
    Mild (store.setDeployment app deployment) :=
  (store.mild_record? app).bind fun _ => mild_ok _

end Store

namespace Call

variable {α β : Type}

/-- A call that fails leaves the session as it was. -/
def Careful (call : Call α) (session : Session) : Prop :=
  ∀ problem later, call.run session = (.error problem, later) → later = session

/-- A call does not fail. -/
def Succeeds (call : Call α) (session : Session) : Prop :=
  ∃ value later, call.run session = (.ok value, later)

variable {call : Call α} {next : α → Call β} {session : Session}

theorem careful_throw (problem : ControlError) (session : Session) :
    (throw problem : Call α).Careful session := by
  intro other later failed
  cases failed
  rfl

theorem Succeeds.careful (succeeds : call.Succeeds session) : call.Careful session := by
  rcases succeeds with ⟨value, later, ran⟩
  intro problem last failed
  rw [ran] at failed
  cases failed

theorem succeeds_pure (value : α) (session : Session) : (pure value : Call α).Succeeds session :=
  ⟨value, session, rfl⟩

theorem Succeeds.bind (first : call.Succeeds session)
    (rest : ∀ value later, call.run session = (.ok value, later) → (next value).Succeeds later) :
    (call >>= next).Succeeds session := by
  rcases first with ⟨value, later, ran⟩
  rcases rest value later ran with ⟨answer, last, continued⟩
  exact ⟨answer, last, by rw [run_bind, ran]; exact continued⟩

/-- As long as a call only asks, what comes next has to be careful. -/
theorem Careful.bind_of_inquires (first : call.Careful session) (asks : call.Inquires session)
    (rest : ∀ value, call.run session = (.ok value, session) → (next value).Careful session) :
    (call >>= next).Careful session := by
  intro problem last failed
  rw [run_bind] at failed
  rcases ran : call.run session with ⟨other | value, later⟩
  · rw [ran] at failed
    cases failed
    exact first _ _ ran
  · rw [ran] at failed
    obtain rfl := asks.same ran
    exact rest value ran problem last failed

/-- Once a call has had an effect, what comes next must not fail. -/
theorem Careful.bind (first : call.Careful session)
    (rest : ∀ value later, call.run session = (.ok value, later) → (next value).Succeeds later) :
    (call >>= next).Careful session := by
  intro problem last failed
  rw [run_bind] at failed
  rcases ran : call.run session with ⟨other | value, later⟩
  · rw [ran] at failed
    cases failed
    exact first _ _ ran
  · rcases rest value later ran with ⟨answer, final, continued⟩
    rw [ran] at failed
    cases continued.symm.trans failed

/-- What is left of a call after its answer does not matter. -/
theorem Careful.map {answer : α → β} (careful : call.Careful session) :
    (call >>= fun value => pure (answer value)).Careful session :=
  careful.bind fun _ later _ => succeeds_pure _ later

/-! ### Parts of calls -/

theorem careful_ensureHealthy (session : Session) : ensureHealthy.Careful session := by
  have asked : (get : Call Session).Succeeds session := ⟨session, session, rfl⟩
  refine asked.careful.bind_of_inquires (inquires_get session) fun current _ => ?_
  cases current.engine.health with
  | healthy => exact (succeeds_pure () session).careful
  | unhealthy reason since => exact careful_throw _ session

theorem careful_ensureOwned (app : AppName) (session : Session) :
    (ensureOwned app).Careful session := by
  have asked : (get : Call Session).Succeeds session := ⟨session, session, rfl⟩
  refine asked.careful.bind_of_inquires (inquires_get session) fun current _ => ?_
  simp only
  split
  · exact (succeeds_pure () session).careful
  · exact careful_throw _ session

theorem succeeds_publish (event : ControlEvent) (session : Session) :
    (publish event).Succeeds session :=
  ⟨(), session.publish event, rfl⟩

theorem succeeds_trigger (key : ActorKey) (intent : Intent) (cause : Trigger) (session : Session) :
    (trigger key intent cause).Succeeds session :=
  ⟨_, _, run_trigger key intent cause session⟩

section InReach

variable (inReach : session.backend.outage = none)
include inReach

theorem reach_of_inReach (request : StoreRequest) : session.backend.reach request = .ok () := by
  rw [Backend.reach, inReach]

theorem careful_query {request : StoreRequest} {answer : Store → Except StoreError α}
    (mild : Mild (answer session.backend.store)) : (query request answer).Careful session := by
  intro problem later failed
  rw [run_query, Backend.query, reach_of_inReach inReach] at failed
  rcases answered : answer session.backend.store with other | value
  · simp only [answered, bind, Except.bind] at failed
    cases failed
    rw [Session.noteStoreError, mild other answered, if_neg Bool.false_ne_true]
  · simp only [answered, bind, Except.bind] at failed
    cases failed

theorem careful_change {request : StoreRequest} {answer : Store → Except StoreError (Store × α)}
    (mild : Mild (answer session.backend.store)) : (change request answer).Careful session := by
  intro problem later failed
  rw [run_change, Backend.change, reach_of_inReach inReach] at failed
  rcases answered : answer session.backend.store with other | ⟨store, value⟩
  · simp only [answered, bind, Except.bind] at failed
    cases failed
    rw [Session.noteStoreError, mild other answered, if_neg Bool.false_ne_true]
  · simp only [answered, bind, Except.bind] at failed
    cases failed

theorem succeeds_change {request : StoreRequest} {answer : Store → Except StoreError (Store × α)}
    {store : Store} {value : α} (answered : answer session.backend.store = .ok (store, value)) :
    (change request answer).Succeeds session := by
  refine ⟨value, { session with backend := { session.backend with store := store } }, ?_⟩
  rw [run_change, Backend.change, reach_of_inReach inReach]
  simp only [answered, bind, Except.bind, pure, Except.pure]

theorem inReach_of_change {request : StoreRequest}
    {answer : Store → Except StoreError (Store × α)} {value : α} {later : Session}
    (changed : (change request answer).run session = (.ok value, later)) :
    later.backend.outage = none := by
  rcases change_eq_ok changed with ⟨store, -, rfl⟩
  exact inReach

theorem succeeds_deployment? (app : AppName) : (Call.deployment? app).Succeeds session := by
  refine ⟨session.backend.store.deployment? app, session, ?_⟩
  rw [Call.deployment?, run_query, Backend.query, reach_of_inReach inReach]
  rfl

theorem succeeds_triggerDeployed (app : AppName) (cause : Trigger) :
    (triggerDeployed app cause).Succeeds session := by
  refine (succeeds_deployment? inReach app).bind fun deployment later _ => ?_
  rcases deployment with _ | ⟨lattice, _ | _, updatedAt⟩
  · exact succeeds_pure [] later
  · exact succeeds_trigger _ _ _ later
  · exact succeeds_pure [] later

/-- To announce a request and to wake the actor that it concerns does not fail. -/
theorem succeeds_announce (event : ControlEvent) (app : AppName) (cause : Trigger) (answer : α) :
    (do
      publish event
      let chores ← triggerDeployed app cause
      return ⟨chores, answer⟩ : Call (Pending α)).Succeeds session := by
  refine (succeeds_publish event session).bind fun _ later published => ?_
  cases published
  have laterInReach : (session.publish event).backend.outage = none := inReach
  exact (succeeds_triggerDeployed laterInReach app cause).bind fun _ later _ =>
    succeeds_pure _ later

theorem careful_ensureDeployable (app : AppName) (lattice : LatticeId) :
    (ensureDeployable app lattice).Careful session := by
  refine (succeeds_deployment? inReach app).careful.bind_of_inquires
    (inquires_deployment? app session) fun deployment _ => ?_
  cases deployment with
  | none => exact (succeeds_pure () session).careful
  | some record =>
      simp only
      split
      · exact (succeeds_pure () session).careful
      · exact careful_throw _ session

/-! ### Requests about manifests and deployments -/

theorem careful_submit (manifest : Manifest) : (submit manifest).Careful session := by
  refine (careful_ensureHealthy session).bind_of_inquires (inquires_ensureHealthy session)
    fun _ _ => ?_
  refine (careful_ensureOwned _ session).bind_of_inquires (inquires_ensureOwned _ session)
    fun _ _ => ?_
  have asked : (get : Call Session).Succeeds session := ⟨session, session, rfl⟩
  refine asked.careful.bind_of_inquires (inquires_get session) fun current _ => ?_
  refine (careful_change inReach (Store.mild_put _ _ _ _)).bind fun version later stored => ?_
  exact succeeds_announce (inReach_of_change inReach stored) _ _ _ version

theorem careful_rollbackStore (app : AppName) (version : String) :
    (rollbackStore app version).Careful session :=
  careful_change inReach (Store.mild_rollback _ _ _)

theorem careful_rollback (app : AppName) (version : String) :
    (rollback app version).Careful session := by
  refine (careful_ensureHealthy session).bind_of_inquires (inquires_ensureHealthy session)
    fun _ _ => ?_
  refine (careful_ensureOwned app session).bind_of_inquires (inquires_ensureOwned app session)
    fun _ _ => ?_
  refine (careful_rollbackStore inReach app version).bind fun manifest later current => ?_
  exact succeeds_announce (inReach_of_change inReach current) _ _ _ manifest.version

theorem careful_prune (app : AppName) (keep : Nat) : (prune app keep).Careful session := by
  refine (careful_ensureOwned app session).bind_of_inquires (inquires_ensureOwned app session)
    fun _ _ => ?_
  exact careful_change inReach (Store.mild_prune _ _ _)

theorem careful_selectVersion (app : AppName) (version : Option String) :
    (selectVersion app version).Careful session := by
  refine (careful_query inReach (Store.mild_getCurrent _ _)).bind_of_inquires
    (inquires_query _ _ session) fun current _ => ?_
  cases version with
  | none => exact (succeeds_pure current session).careful
  | some version =>
      simp only
      split
      · exact (succeeds_pure current session).careful
      · exact careful_rollbackStore inReach app version

/-- A version can only be selected of an application that is stored. -/
theorem stored_of_selectVersion {app : AppName} {version : Option String} {manifest : Manifest}
    {later : Session}
    (selected : (selectVersion app version).run session = (.ok manifest, later)) :
    later.backend.outage = none ∧ ∃ record, later.backend.store.apps.find? app = some record := by
  rw [selectVersion, run_bind] at selected
  rcases asked : (getCurrent app).run session with ⟨problem | current, middle⟩
  · rw [asked] at selected
    cases selected
  · rw [asked] at selected
    have stored : ∃ record, session.backend.store.apps.find? app = some record := by
      have answered := query_eq_ok asked
      rw [Store.getCurrent, Store.record?] at answered
      split at answered
      · rename_i record found
        exact ⟨record, found⟩
      · cases answered
    obtain rfl := (inquires_query _ _ session).same asked
    cases version with
    | none =>
        cases selected
        exact ⟨inReach, stored⟩
    | some version =>
        simp only at selected
        split at selected
        · cases selected
          exact ⟨inReach, stored⟩
        · refine ⟨inReach_of_change inReach selected, ?_⟩
          rcases change_eq_ok selected with ⟨store, repointed, rfl⟩
          rcases Store.rollback_eq_ok repointed with ⟨record, place, -, -, -, -, rfl⟩
          exact ⟨{ record with current := place }, by rw [Store.find?_withRecord, if_pos rfl]⟩

theorem careful_setDeployment (app : AppName) (record : DeploymentRecord) :
    (setDeployment app record).Careful session :=
  careful_change inReach ((Store.mild_setDeployment _ _ _).map _)

/-- Where an application is deployed can be recorded if it is stored. -/
theorem succeeds_setDeployment {app : AppName} {record : AppRecord}
    (stored : session.backend.store.apps.find? app = some record) (deployment : DeploymentRecord) :
    (setDeployment app deployment).Succeeds session := by
  let store := session.backend.store.withRecord app { record with deployment := some deployment }
  have recorded : session.backend.store.setDeployment app (some deployment) = .ok store :=
    Store.setDeployment_eq_ok_iff.mpr ⟨record, stored, rfl⟩
  have answered : (session.backend.store.setDeployment app (some deployment)).map (·, ()) =
      .ok (store, ()) := by rw [recorded]; rfl
  exact succeeds_change inReach answered

theorem careful_deploy (app : AppName) (version : Option String) (lattice : LatticeId) :
    (deploy app version lattice).Careful session := by
  refine (careful_ensureHealthy session).bind_of_inquires (inquires_ensureHealthy session)
    fun _ _ => ?_
  refine (careful_ensureOwned app session).bind_of_inquires (inquires_ensureOwned app session)
    fun _ _ => ?_
  refine (careful_ensureDeployable inReach app lattice).bind_of_inquires
    (inquires_ensureDeployable app lattice session) fun _ _ => ?_
  -- To select a version may make another one current, so what comes next must not fail.
  refine (careful_selectVersion inReach app version).bind fun manifest later selected => ?_
  rcases stored_of_selectVersion inReach selected with ⟨laterInReach, record, stored⟩
  have asked : (get : Call Session).Succeeds later := ⟨later, later, rfl⟩
  refine asked.bind fun current now ran => ?_
  cases ran
  refine (succeeds_setDeployment laterInReach stored _).bind fun _ now _ => ?_
  exact (succeeds_trigger _ _ _ now).bind fun _ now _ => succeeds_pure _ now

theorem careful_beginRemoval (app : AppName) (lattice : LatticeId) (mode : UndeployMode) :
    (beginRemoval app lattice mode).Careful session := by
  cases mode with
  | graceful =>
      have asked : (get : Call Session).Succeeds session := ⟨session, session, rfl⟩
      refine asked.careful.bind_of_inquires (inquires_get session) fun current _ => ?_
      exact careful_setDeployment inReach app _
  | force =>
      have mild : Mild (.ok (session.backend.store.delete app)) := mild_ok _
      exact (careful_change inReach mild).bind fun _ later _ => succeeds_publish _ later

theorem careful_undeploy (app : AppName) (mode : UndeployMode) :
    (undeploy app mode).Careful session := by
  refine (careful_ensureHealthy session).bind_of_inquires (inquires_ensureHealthy session)
    fun _ _ => ?_
  refine (careful_ensureOwned app session).bind_of_inquires (inquires_ensureOwned app session)
    fun _ _ => ?_
  refine (succeeds_deployment? inReach app).careful.bind_of_inquires
    (inquires_deployment? app session) fun deployment _ => ?_
  cases deployment with
  | none => exact careful_throw _ session
  | some record =>
      refine (careful_beginRemoval inReach app record.lattice mode).bind fun _ later _ => ?_
      exact (succeeds_trigger _ _ _ later).bind fun _ later _ => succeeds_pure _ later

theorem careful_deleteApplication (app : AppName) : (deleteApplication app).Careful session := by
  refine (careful_ensureHealthy session).bind_of_inquires (inquires_ensureHealthy session)
    fun _ _ => ?_
  refine (careful_ensureOwned app session).bind_of_inquires (inquires_ensureOwned app session)
    fun _ _ => ?_
  refine (succeeds_deployment? inReach app).careful.bind_of_inquires
    (inquires_deployment? app session) fun deployment _ => ?_
  cases deployment with
  | some record => exact (careful_undeploy inReach app .force).map
  | none =>
      have mild : Mild (.ok (session.backend.store.delete app)) := mild_ok _
      refine (careful_change inReach mild).bind fun existed later _ => ?_
      cases existed with
      | false => exact succeeds_pure _ later
      | true =>
          exact (succeeds_publish _ later).bind fun _ later _ => succeeds_pure _ later

end InReach

end Call

/-- Whether a request is about manifests or deployments. -/
def Request.manages : Request → Bool
  | submit _ => true
  | rollback .. => true
  | prune .. => true
  | deploy .. => true
  | undeploy .. => true
  | deleteApplication _ => true
  | _ => false

/-- Whether a chore puts a trigger into a queue or announces something, which does not fail. -/
def Chore.isSafe : Chore → Bool
  | deliver .. => true
  | publish _ => true
  | _ => false

/-- None of some chores can fail. -/
def Chore.Safe (chores : List Chore) : Prop :=
  ∀ chore ∈ chores, chore.isSafe = true

theorem Chore.typical_safe : Typical Safe where
  nothing := List.forall_mem_nil _
  order _ _ _ := List.forall_mem_singleton.mpr rfl
  announced _ _ _ _ := List.forall_mem_cons.mpr ⟨rfl, List.forall_mem_singleton.mpr rfl⟩

namespace Call

variable {session : Session} {request : Request}

theorem careful_request (inReach : session.backend.outage = none)
    (manages : request.manages = true) : request.call.Careful session := by
  cases request with
  | submit manifest => exact (careful_submit inReach manifest).map
  | rollback app version => exact (careful_rollback inReach app version).map
  | prune app keep => exact (careful_prune inReach app keep).map
  | deploy app version lattice => exact (careful_deploy inReach app version lattice).map
  | undeploy app mode => exact (careful_undeploy inReach app mode).map
  | deleteApplication app => exact (careful_deleteApplication inReach app).map
  | _ => cases manages

theorem answers_safe (manages : request.manages = true) : request.call.Answers Chore.Safe := by
  cases request with
  | submit manifest => exact (answers_submit Chore.typical_safe manifest).map
  | rollback app version => exact (answers_rollback Chore.typical_safe app version).map
  | prune app keep => exact answers_last fun _ => answers_pure Chore.typical_safe.nothing
  | deploy app version lattice =>
      exact (answers_deploy Chore.typical_safe app version lattice).map
  | undeploy app mode => exact (answers_undeploy Chore.typical_safe app mode).map
  | deleteApplication app => exact (answers_deleteApplication Chore.typical_safe app).map
  | _ => cases manages

end Call

/-- Safe chores do not fail, and leave safe chores. -/
theorem Session.safe_perform (session : Session) {chore : Chore} (safe : chore.isSafe = true) :
    ∃ chores, (session.afterDeed (.perform chore)).2 = .ok chores ∧ Chore.Safe chores := by
  rw [afterDeed]
  split
  · cases chore with
    | deliver number trigger isWaiting =>
        refine ⟨(session.deliver number trigger isWaiting).2, rfl, ?_⟩
        rcases session.chores_deliver number trigger isWaiting with left | left
        · rw [left]
          exact Chore.typical_safe.nothing
        · rw [left]
          exact List.forall_mem_singleton.mpr rfl
    | publish event => exact ⟨[], rfl, Chore.typical_safe.nothing⟩
    | _ => cases safe
  · exact ⟨[chore], rfl, List.forall_mem_singleton.mpr safe⟩

namespace World

variable {world : World}

/-- An errand whose chores cannot fail. -/
def HasSafeErrand (world : World) (position : Nat) : Prop :=
  ∃ errand, world.errands[position]? = some errand ∧ Chore.Safe errand.chores

theorem HasSafeErrand.after {position : Nat} (safe : world.HasSafeErrand position) (act : Act) :
    (world.after act).HasSafeErrand position := by
  rcases safe with ⟨errand, here, safe⟩
  rcases getElem?_errands_after here act with
    still | ⟨chore, rest, session, isFirst, _, _, goneOn⟩
  · exact ⟨errand, still, safe⟩
  · refine ⟨_, goneOn, ?_⟩
    rw [isFirst, Chore.Safe, List.forall_mem_cons] at safe
    rcases session.safe_perform safe.1 with ⟨chores, performed, left⟩
    rw [performed, Errand.goOn, isFirst]
    exact List.forall_mem_append.mpr ⟨left, safe.2⟩

theorem HasSafeErrand.afterAll {position : Nat} (safe : world.HasSafeErrand position)
    (acts : List Act) : (world.afterAll acts).HasSafeErrand position := by
  induction acts generalizing world with
  | nil => exact safe
  | cons act acts ih => exact ih (safe.after act)

/--
A refused request leaves no trace. As long as the store is in reach, as a store in memory always is,
a request about manifests and deployments that fails leaves the fleet as it was: the histories and
deployments in the store, the lattices, and of each engine its commands, its actors with their
queues, its health and its events. A request that has not failed at once does not fail later: what
is left to do of it never does, whatever happens in the meantime.
-/
theorem refuses_without_trace {index : Nat} {session : Session}
    (found : world.fleet.session? index = some session)
    (inReach : session.backend.outage = none) {request : Request}
    (manages : request.manages = true) :
    let next := world.after (.ask index request)
    (∀ problem, (session.afterDeed (.answer request)).2 = .error problem →
      next.fleet = world.fleet) ∧
    ∀ acts later chore,
      (next.afterAll acts).deed? (.carryOn world.errands.length) = some (index, .perform chore) →
      (next.afterAll acts).fleet.session? index = some later →
        ∃ chores, (later.afterDeed (.perform chore)).2 = .ok chores := by
  intro next
  have about : world.deed? (.ask index request) = some (index, .answer request) := rfl
  constructor
  · intro problem failed
    have unchanged : (session.afterDeed (.answer request)).1 = session :=
      Call.careful_request inReach manages problem _ (Prod.ext failed rfl)
    change (world.after (.ask index request)).fleet = world.fleet
    rw [after_of_deed? about found, unchanged]
    exact Fleet.putSession_self found
  · intro acts later chore performs laterFound
    have first : next.HasSafeErrand world.errands.length := by
      rw [HasSafeErrand, errands_after about found, errandsAfter]
      refine ⟨_, List.getElem?_concat_length, ?_⟩
      cases answered : (session.afterDeed (.answer request)).2 with
      | error problem => exact Chore.typical_safe.nothing
      | ok chores => exact Call.answers_safe manages session chores _ (Prod.ext answered rfl)
    rcases first.afterAll acts with ⟨errand, here, safe⟩
    rcases exists_errand_of_deed? performs with ⟨other, rest, same, isChore⟩
    cases isChore
    obtain rfl := Option.some.inj (here.symm.trans same)
    rcases later.safe_perform (List.forall_mem_cons.mp safe).1 with ⟨chores, performed, -⟩
    exact ⟨chores, performed⟩

/-- The actor of an application is about to be woken when an unknown version is to be deployed. -/
theorem refuses_without_trace_of_unknown :
    let manifest : Manifest := (Manifest.new ⟨"shop"⟩ "v1").withComponent
      (Component.new "api" .component "registry/api:1")
    let engine : Engine := .new 0 .development .new (some (.ofList [⟨"shop"⟩])) none
    let world : World := World.afterAll (.new ⟨0, ⟨0, 0⟩⟩ [⟨engine, none⟩])
      [.ask 0 (.submit manifest), .ask 0 (.deploy ⟨"shop"⟩ none ⟨"prod"⟩), .carryOn 1]
    let request : Request := .deploy ⟨"shop"⟩ (some "v2") ⟨"prod"⟩
    ∃ session, world.fleet.session? 0 = some session ∧
      session.engine.roster.values.map Actor.queue = [[.deploy]] ∧
      (session.afterDeed (.answer request)).2 =
        .error (.store (.versionNotFound ⟨"shop"⟩ "v2")) ∧
      (world.after (.ask 0 request)).fleet = world.fleet := by
  intro manifest engine world request
  have seen : (world.fleet.session? 0).map (fun session =>
      (session.backend.outage, session.engine.roster.values.map Actor.queue,
        (session.afterDeed (.answer request)).2)) =
      some (none, [[.deploy]], .error (.store (.versionNotFound ⟨"shop"⟩ "v2"))) := by
    decide +kernel
  rcases Option.map_eq_some_iff.mp seen with ⟨session, found, same⟩
  simp only [Prod.mk.injEq] at same
  rcases same with ⟨inReach, queued, failed⟩
  exact ⟨session, found, queued, failed,
    (refuses_without_trace found inReach rfl).1 _ failed⟩

end World

end Reconciler
