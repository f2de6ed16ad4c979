import Reconciler.Engine.Actor
import Reconciler.Proofs.Store.Operations
import Reconciler.Store.Backend

/-!
# What the requests of a store do to deployments

Versions come, become current and go without any change of where applications are deployed. Only a
request that records a deployment and one that deletes an application change that, and only for the
application that they are about.
-/

namespace Reconciler

namespace Store

variable {store next : Store} {app : AppName}

theorem deployment?_withRecord (store : Store) (app other : AppName) (record : AppRecord) :
    (store.withRecord app record).deployment? other =
      if other = app then record.deployment else store.deployment? other := by
  rw [deployment?, deployment?, find?_withRecord]
  split <;> rfl

/-- A history that tells the same deployment as before changes no deployment. -/
theorem deployment?_withRecord_of_same {record : AppRecord}
    (same : record.deployment = store.deployment? app) (other : AppName) :
    (store.withRecord app record).deployment? other = store.deployment? other := by
  rw [deployment?_withRecord]
  split
  · rename_i here
    rw [same, here]
  · rfl

theorem deployment?_of_find? {record : AppRecord} (found : store.apps.find? app = some record) :
    store.deployment? app = record.deployment := by
  rw [deployment?, found, Option.bind_some]

theorem deployment?_put {now : Timestamp} {manifest : Manifest} {label : String}
    (stored : store.put now app manifest = .ok (next, label)) (other : AppName) :
    next.deployment? other = store.deployment? other := by
  rcases put_eq_ok stored with ⟨_, _, _, _, rfl⟩
  refine deployment?_withRecord_of_same ?_ other
  rw [deployment?]
  cases store.apps.find? app <;> rfl

theorem deployment?_rollback {version : String} {manifest : Manifest}
    (current : store.rollback app version = .ok (next, manifest)) (other : AppName) :
    next.deployment? other = store.deployment? other := by
  rcases rollback_eq_ok current with ⟨record, place, _, found, _, _, rfl⟩
  refine deployment?_withRecord_of_same ?_ other
  exact (deployment?_of_find? found).symm

theorem deployment?_prune {keep removed : Nat}
    (pruned : store.prune app keep = .ok (next, removed)) (other : AppName) :
    next.deployment? other = store.deployment? other := by
  rcases prune_eq_ok pruned with ⟨record, found, rfl⟩
  refine deployment?_withRecord_of_same ?_ other
  exact (deployment?_of_find? found).symm

theorem deployment?_setDeployment {deployment : Option DeploymentRecord}
    (recorded : store.setDeployment app deployment = .ok next) (other : AppName) :
    next.deployment? other = if other = app then deployment else store.deployment? other := by
  rcases setDeployment_eq_ok_iff.mp recorded with ⟨record, _, rfl⟩
  exact deployment?_withRecord store app other _

theorem deployment?_delete (store : Store) (app other : AppName) :
    (store.delete app).1.deployment? other =
      if other = app then none else store.deployment? other := by
  rw [delete, deployment?, deployment?, SortedMap.find?_erase]
  split <;> rfl

end Store

namespace Backend

/-- Whether an application is deployed to a lattice, and is not being removed from it. -/
def isActive (backend : Backend) (key : ActorKey) : Bool :=
  (backend.store.deployment? key.app).any fun record =>
    record.phase == .active && record.lattice == key.lattice

/-- The applications are deployed where they were. -/
def SameDeployments (backend next : Backend) : Prop :=
  ∀ app, next.store.deployment? app = backend.store.deployment? app

/-- No active deployment comes to its end. -/
def Retains (backend next : Backend) : Prop :=
  ∀ key, backend.isActive key = true → next.isActive key = true

/-- No active deployment comes to its end, except perhaps that of an application. -/
def RetainsBut (backend : Backend) (app : AppName) (next : Backend) : Prop :=
  ∀ key, key.app ≠ app → backend.isActive key = true → next.isActive key = true

variable {backend next : Backend} {app : AppName}

theorem isActive_iff {key : ActorKey} :
    backend.isActive key = true ↔ ∃ record, backend.store.deployment? key.app = some record ∧
      record.phase = .active ∧ record.lattice = key.lattice := by
  simp [isActive, Option.any_eq_true]

theorem SameDeployments.retains (same : backend.SameDeployments next) : backend.Retains next := by
  intro key active
  rwa [isActive, same key.app, ← isActive]

theorem Retains.refl (backend : Backend) : backend.Retains backend :=
  fun _ active => active

theorem Retains.trans {last : Backend} (retains : backend.Retains next)
    (more : next.Retains last) : backend.Retains last :=
  fun key active => more key (retains key active)

/-- To delete an application that is not actively deployed ends no active deployment. -/
theorem retains_of_delete {deleted : Store × Bool} (erased : backend.store.delete app = deleted)
    (inactive : ∀ record, backend.store.deployment? app = some record → record.phase ≠ .active) :
    backend.Retains { backend with store := deleted.1 } := by
  intro key active
  rcases isActive_iff.mp active with ⟨record, recorded, phase, lattice⟩
  refine isActive_iff.mpr ⟨record, ?_, phase, lattice⟩
  rw [← erased, Store.deployment?_delete, if_neg, recorded]
  intro same
  exact inactive record (same ▸ recorded) phase

theorem retainsBut_of_delete (backend : Backend) (app : AppName) :
    backend.RetainsBut app { backend with store := (backend.store.delete app).1 } := by
  intro key other active
  rcases isActive_iff.mp active with ⟨record, recorded, phase, lattice⟩
  refine isActive_iff.mpr ⟨record, ?_, phase, lattice⟩
  rw [Store.deployment?_delete, if_neg other, recorded]

theorem retainsBut_of_setDeployment {store : Store} {deployment : Option DeploymentRecord}
    (recorded : backend.store.setDeployment app deployment = .ok store) :
    backend.RetainsBut app { backend with store := store } := by
  intro key other active
  rcases isActive_iff.mp active with ⟨record, found, phase, lattice⟩
  refine isActive_iff.mpr ⟨record, ?_, phase, lattice⟩
  rw [Store.deployment?_setDeployment recorded, if_neg other, found]

theorem isActive_of_setDeployment {store : Store} {lattice : LatticeId} {time : Timestamp}
    (recorded : backend.store.setDeployment app (some ⟨lattice, .active, time⟩) = .ok store) :
    ({ backend with store := store } : Backend).isActive ⟨lattice, app⟩ = true := by
  refine isActive_iff.mpr ⟨⟨lattice, .active, time⟩, ?_, rfl, rfl⟩
  rw [Store.deployment?_setDeployment recorded, if_pos rfl]

/-- To deploy an application where it is deployed already ends no active deployment. -/
theorem retains_of_setDeployment {store : Store} {lattice : LatticeId} {time : Timestamp}
    (recorded : backend.store.setDeployment app (some ⟨lattice, .active, time⟩) = .ok store)
    (here : ∀ record, backend.store.deployment? app = some record → record.lattice = lattice) :
    backend.Retains { backend with store := store } := by
  intro key active
  by_cases same : key.app = app
  · rcases isActive_iff.mp active with ⟨record, found, _, there⟩
    rw [same] at found
    have sameKey : key = ⟨lattice, app⟩ := by
      rw [← here record found, there, ← same]
    rw [sameKey]
    exact isActive_of_setDeployment recorded
  · exact retainsBut_of_setDeployment recorded key same active

theorem query_eq_ok {α : Type} {request : StoreRequest} {answer : Store → Except StoreError α}
    {value : α} (answered : backend.query request answer = .ok value) :
    answer backend.store = .ok value := by
  rw [query] at answered
  cases reached : backend.reach request with
  | error problem => simp [reached, bind, Except.bind] at answered
  | ok _ => simpa [reached, bind, Except.bind] using answered

theorem change_eq_ok {α : Type} {request : StoreRequest}
    {answer : Store → Except StoreError (Store × α)} {value : α}
    (changed : backend.change request answer = .ok (next, value)) :
    ∃ store, answer backend.store = .ok (store, value) ∧
      next = { backend with store := store } := by
  rw [change] at changed
  cases reached : backend.reach request with
  | error problem => simp [reached, bind, Except.bind] at changed
  | ok _ =>
      cases answered : answer backend.store with
      | error problem => simp [reached, answered, bind, Except.bind] at changed
      | ok result =>
          simp only [reached, answered, bind, Except.bind, pure, Except.pure, Except.ok.injEq,
            Prod.mk.injEq] at changed
          rcases changed with ⟨rfl, rfl⟩
          exact ⟨result.1, rfl, rfl⟩

end Backend

end Reconciler
