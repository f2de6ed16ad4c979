import Reconciler.Store.Record

/-!
# Manifest store

The histories of all applications. A request that fails leaves the store as it was.
-/

namespace Reconciler

/-- The stored applications. -/
structure Store where
  apps : SortedMap AppName AppRecord
deriving DecidableEq, Inhabited

namespace Store

/-- The store without applications. -/
def empty : Store :=
  ⟨∅⟩

/-- The history of an application. -/
def record? (store : Store) (app : AppName) : Except StoreError AppRecord :=
  match store.apps.find? app with
  | some record => .ok record
  | none => .error (.notFound app)

/-- The store with the history of an application replaced. -/
def withRecord (store : Store) (app : AppName) (record : AppRecord) : Store :=
  ⟨store.apps.insert app record⟩

/--
Adds a version, which becomes current, and answers with its label. A version without a label gets
one.
-/
def put (store : Store) (now : Timestamp) (app : AppName) (manifest : Manifest) :
    Except StoreError (Store × String) :=
  if manifest.name ≠ app then .error (.invalid (.nameMismatch app.text manifest.name.text))
  else
    match manifest.problem? with
    | some problem => .error (.invalid problem)
    | none =>
      let record := (store.apps.find? app).getD .empty
      if manifest.version = "" then
        let label := record.nextLabel
        .ok (store.withRecord app (record.push { manifest with version := label } now), label)
      else if (record.find? manifest.version).isSome then
        .error (.duplicateVersion app manifest.version)
      else .ok (store.withRecord app (record.push manifest now), manifest.version)

/-- The current version of an application. -/
def getCurrent (store : Store) (app : AppName) : Except StoreError Manifest := do
  let record ← store.record? app
  match record.current? with
  | some manifest => return manifest
  | none => throw (.notFound app)

/-- The version of an application with a label. -/
def getVersion (store : Store) (app : AppName) (version : String) : Except StoreError Manifest := do
  let record ← store.record? app
  match record.version? version with
  | some manifest => return manifest
  | none => throw (.versionNotFound app version)

/-- Makes a version current that is there already. -/
def rollback (store : Store) (app : AppName) (version : String) :
    Except StoreError (Store × Manifest) := do
  let record ← store.record? app
  match record.find? version, record.version? version with
  | some place, some manifest =>
    return (store.withRecord app { record with current := place }, manifest)
  | _, _ => throw (.versionNotFound app version)

/-- Deletes an application with its history; the answer is whether there was one. -/
def delete (store : Store) (app : AppName) : Store × Bool :=
  (⟨store.apps.erase app⟩, store.apps.contains app)

/-- The versions of an application, the oldest first. -/
def listVersions (store : Store) (app : AppName) : Except StoreError (List VersionInfo) := do
  let record ← store.record? app
  return record.infos

/-- The stored applications in order. -/
def listApplications (store : Store) : List AppName :=
  store.apps.keys

/-- Removes old versions of an application, and answers how many. -/
def prune (store : Store) (app : AppName) (keep : Nat) : Except StoreError (Store × Nat) := do
  let record ← store.record? app
  let pruned := record.prune keep
  return (store.withRecord app pruned, record.versions.length - pruned.versions.length)

/-- Records where an application is deployed, or that it is not. -/
def setDeployment (store : Store) (app : AppName) (deployment : Option DeploymentRecord) :
    Except StoreError Store := do
  let record ← store.record? app
  return store.withRecord app { record with deployment := deployment }

/-- Where an application is deployed, if it is. -/
def deployment? (store : Store) (app : AppName) : Option DeploymentRecord :=
  (store.apps.find? app).bind AppRecord.deployment

/-- The deployed applications in order, and where each is deployed. -/
def listDeployments (store : Store) : List (AppName × DeploymentRecord) :=
  store.apps.entries.filterMap fun (app, record) => record.deployment.map (app, ·)

end Store

end Reconciler
