import Reconciler.Projection.Projector
import Reconciler.Store.Store

/-!
# Backends

What engines work on: the store of manifests and the projector of lattices. The store may be out of
reach for a while.
-/

namespace Reconciler

/-- What a store can be asked for. -/
inductive StoreRequest where
  | put
  | getCurrent
  | getVersion
  | rollback
  | delete
  | listVersions
  | listApplications
  | prune
  | setDeployment
  | deployment
  | listDeployments
deriving DecidableEq, Inhabited, Repr

/-- A time when a store is out of reach. -/
structure Outage where
  reason : String
  /-- The requests that fail. -/
  concerns : List StoreRequest
deriving DecidableEq, Inhabited, Repr

/-- A store and a projector. -/
structure Backend where
  store : Store
  projector : Projector
  outage : Option Outage
deriving DecidableEq, Inhabited

namespace Backend

/-- A backend without applications and events. -/
def new (projector : Projector) : Backend :=
  ⟨.empty, projector, none⟩

/-- Whether the store can be asked for something. -/
def reach (backend : Backend) (request : StoreRequest) : Except StoreError Unit :=
  match backend.outage with
  | some outage =>
    if outage.concerns.contains request then .error (.unavailable outage.reason) else .ok ()
  | none => .ok ()

/-- Asks the store for something that leaves it as it is. -/
def query {α : Type} (backend : Backend) (request : StoreRequest)
    (answer : Store → Except StoreError α) : Except StoreError α := do
  backend.reach request
  answer backend.store

/-- Asks the store for something that changes it. -/
def change {α : Type} (backend : Backend) (request : StoreRequest)
    (answer : Store → Except StoreError (Store × α)) : Except StoreError (Backend × α) := do
  backend.reach request
  let (store, value) ← answer backend.store
  return ({ backend with store := store }, value)

/-- The current version of an application. -/
def getCurrent (backend : Backend) (app : AppName) : Except StoreError Manifest :=
  backend.query .getCurrent fun store => store.getCurrent app

/-- Where an application is deployed, if it is. -/
def deployment? (backend : Backend) (app : AppName) :
    Except StoreError (Option DeploymentRecord) :=
  backend.query .deployment fun store => .ok (store.deployment? app)

/-- Deletes an application; the answer is whether there was one. -/
def delete (backend : Backend) (app : AppName) : Except StoreError (Backend × Bool) :=
  backend.change .delete fun store => .ok (store.delete app)

/-- The state of a lattice. -/
def snapshot (backend : Backend) (lattice : LatticeId) : ObservedState :=
  backend.projector.snapshot lattice

end Backend

end Reconciler
