import Reconciler.Engine.Operations
import Reconciler.Engine.Upkeep
import Reconciler.Proofs.Engine.Deployments
import Reconciler.Proofs.Engine.Offers

/-!
# Parts of calls

What the parts of a call do to a session, where the next part begins. A part that only asks leaves
the session as it is; if it fails because the store is out of reach, the engine stops acting.
-/

namespace Reconciler

namespace Call

variable {α β : Type} {session later : Session}

/-- A call goes on with its next part where the last one has left the session, unless it failed. -/
theorem run_bind (call : Call α) (next : α → Call β) (session : Session) :
    (call >>= next).run session =
      match call.run session with
      | (.ok value, later) => (next value).run later
      | (.error problem, later) => (.error problem, later) := by
  rw [ExceptT.run_bind]
  change StateT.bind call.run _ session = _
  rw [StateT.bind]
  rcases call.run session with ⟨problem | value, later⟩ <;> rfl

theorem run_query (request : StoreRequest) (answer : Store → Except StoreError α)
    (session : Session) :
    (query request answer).run session =
      match session.backend.query request answer with
      | .ok value => (.ok value, session)
      | .error problem => (.error (.store problem), session.noteStoreError problem) := by
  rw [query, run_bind]
  change (match session.backend.query request answer with
    | .ok value => (pure value : Call α)
    | .error problem => failStore problem).run session = _
  cases session.backend.query request answer <;> rfl

theorem run_change (request : StoreRequest) (answer : Store → Except StoreError (Store × α))
    (session : Session) :
    (change request answer).run session =
      match session.backend.change request answer with
      | .ok (backend, value) => (.ok value, { session with backend := backend })
      | .error problem => (.error (.store problem), session.noteStoreError problem) := by
  rw [change, run_bind]
  change (match session.backend.change request answer with
    | .ok (backend, value) => (do
        modify fun session : Session => { session with backend := backend }
        return value : Call α)
    | .error problem => failStore problem).run session = _
  rcases session.backend.change request answer with problem | ⟨backend, value⟩ <;> rfl

theorem run_trigger (key : ActorKey) (intent : Intent) (cause : Trigger) (session : Session) :
    (trigger key intent cause).run session =
      (.ok [.deliver (session.engine.ensureActor key intent).2.1 cause false],
        { session with engine := (session.engine.ensureActor key intent).1 }) :=
  rfl

/-- What a change of the store has done if it has not failed. -/
theorem change_eq_ok {request : StoreRequest} {answer : Store → Except StoreError (Store × α)}
    {value : α} (changed : (change request answer).run session = (.ok value, later)) :
    ∃ store, answer session.backend.store = .ok (store, value) ∧
      later = { session with backend := { session.backend with store := store } } := by
  rw [run_change] at changed
  split at changed
  · rename_i backend answered result
    cases changed
    rcases Backend.change_eq_ok result with ⟨store, stored, rfl⟩
    exact ⟨store, stored, rfl⟩
  · cases changed

/-- A change of the store that fails leaves everything as it is, or makes the engine stop. -/
theorem dispatches_of_change_error {request : StoreRequest}
    {answer : Store → Except StoreError (Store × α)} {problem : ControlError}
    (failed : (change request answer).run session = (.error problem, later)) :
    session.Dispatches [] later := by
  rw [run_change] at failed
  split at failed
  · cases failed
  · cases failed
    exact session.dispatches_noteStoreError _

theorem setDeployment_eq_ok {app : AppName} {record : DeploymentRecord}
    (changed : (setDeployment app record).run session = (.ok (), later)) :
    ∃ store, session.backend.store.setDeployment app (some record) = .ok store ∧
      later = { session with backend := { session.backend with store := store } } := by
  rcases change_eq_ok changed with ⟨store, recorded, rfl⟩
  cases stored : session.backend.store.setDeployment app (some record) with
  | error problem => simp [stored, Except.map] at recorded
  | ok next =>
      simp only [stored, Except.map, Except.ok.injEq, Prod.mk.injEq, and_true] at recorded
      exact ⟨store, by rw [recorded], rfl⟩

/-- A call leaves the session as it is, unless it fails. -/
structure Inquires (call : Call α) (session : Session) : Prop where
  same : ∀ {value later}, call.run session = (.ok value, later) → later = session
  dispatches : session.Dispatches [] (call.run session).2

theorem inquires_pure (value : α) (session : Session) : (pure value : Call α).Inquires session :=
  ⟨fun ran => by cases ran; rfl, .refl session⟩

theorem inquires_throw (problem : ControlError) (session : Session) :
    (throw problem : Call α).Inquires session :=
  ⟨fun ran => (by cases ran), .refl session⟩

theorem inquires_get (session : Session) : (get : Call Session).Inquires session :=
  ⟨fun ran => by cases ran; rfl, .refl session⟩

theorem Inquires.bind {call : Call α} {next : α → Call β} (first : call.Inquires session)
    (rest : ∀ value, call.run session = (.ok value, session) → (next value).Inquires session) :
    (call >>= next).Inquires session := by
  rcases ran : call.run session with ⟨problem | value, later⟩
  · have failed := first.dispatches
    rw [ran] at failed
    refine ⟨?_, ?_⟩
    · intro value last continued
      rw [run_bind, ran] at continued
      cases continued
    · rwa [run_bind, ran]
  · obtain rfl := first.same ran
    have continued := rest value ran
    refine ⟨?_, ?_⟩
    · intro answer last finished
      rw [run_bind, ran] at finished
      exact continued.same finished
    · rw [run_bind, ran]
      exact continued.dispatches

theorem inquires_query (request : StoreRequest) (answer : Store → Except StoreError α)
    (session : Session) : (query request answer).Inquires session := by
  refine ⟨?_, ?_⟩
  · intro value later ran
    rw [run_query] at ran
    split at ran
    · cases ran
      rfl
    · cases ran
  · rw [run_query]
    split
    · exact .refl session
    · exact session.dispatches_noteStoreError _

/-- What a store has answered if the question has not failed. -/
theorem query_eq_ok {request : StoreRequest} {answer : Store → Except StoreError α} {value : α}
    (asked : (query request answer).run session = (.ok value, later)) :
    answer session.backend.store = .ok value := by
  rw [run_query] at asked
  split at asked
  · rename_i answered result
    cases asked
    exact Backend.query_eq_ok result
  · cases asked

theorem inquires_ensureHealthy (session : Session) : ensureHealthy.Inquires session := by
  refine (inquires_get session).bind ?_
  intro current _
  cases current.engine.health with
  | healthy => exact inquires_pure () session
  | unhealthy reason since => exact inquires_throw _ session

theorem inquires_ensureOwned (app : AppName) (session : Session) :
    (ensureOwned app).Inquires session := by
  refine (inquires_get session).bind ?_
  intro current _
  simp only
  split
  · exact inquires_pure () session
  · exact inquires_throw _ session

theorem inquires_deployment? (app : AppName) (session : Session) :
    (deployment? app).Inquires session :=
  inquires_query _ _ session

theorem deployment?_eq_ok {app : AppName} {deployment : Option DeploymentRecord}
    (asked : (Call.deployment? app).run session = (.ok deployment, later)) :
    session.backend.store.deployment? app = deployment :=
  Except.ok.inj (query_eq_ok asked)

theorem inquires_ensureDeployable (app : AppName) (lattice : LatticeId) (session : Session) :
    (ensureDeployable app lattice).Inquires session := by
  refine (inquires_deployment? app session).bind ?_
  intro deployment _
  cases deployment with
  | none => exact inquires_pure () session
  | some record =>
      simp only
      split
      · exact inquires_pure () session
      · exact inquires_throw _ session

/-- An application may be deployed where it is deployed already. -/
theorem lattice_of_ensureDeployable {app : AppName} {lattice : LatticeId}
    (passed : (ensureDeployable app lattice).run session = (.ok (), later))
    {record : DeploymentRecord} (recorded : session.backend.store.deployment? app = some record) :
    record.lattice = lattice := by
  rw [ensureDeployable, run_bind] at passed
  rcases asked : (Call.deployment? app).run session with ⟨problem | deployment, current⟩
  · rw [asked] at passed
    cases passed
  · rw [asked] at passed
    rw [deployment?_eq_ok asked] at recorded
    subst recorded
    simp only at passed
    split at passed
    · assumption
    · cases passed

theorem inquires_currentIfAny (app : AppName) (session : Session) :
    (currentIfAny app).Inquires session :=
  inquires_query _ _ session

theorem inquires_status (app : AppName) (session : Session) : (status app).Inquires session := by
  refine (inquires_deployment? app session).bind ?_
  intro deployment _
  refine (inquires_currentIfAny app session).bind ?_
  intro manifest _
  simp only
  split
  · exact (inquires_throw _ session).bind fun _ _ =>
      (inquires_get session).bind fun _ _ => inquires_pure _ session
  · exact (inquires_get session).bind fun _ _ => inquires_pure _ session

end Call

end Reconciler
