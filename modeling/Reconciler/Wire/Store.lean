import Reconciler.Store.Backend
import Reconciler.Wire.Manifest

/-!
# JSON forms of stored things

Deployments and versions are records.
-/

namespace Reconciler

open JsonForm

/-- The names of the phases of deployments. -/
def DeploymentPhase.names : NameTable DeploymentPhase where
  nameOf
    | .active => "active"
    | .undeploying => "undeploying"
  values := [.active, .undeploying]
  aliases := []

instance : JsonForm DeploymentPhase :=
  DeploymentPhase.names.form

instance : JsonForm DeploymentRecord where
  write record :=
    .object [("lattice", write record.lattice), ("phase", write record.phase),
      ("updated_at", write record.updatedAt)]
  read? reading json := do
    let fields ← json.fields? ["lattice", "phase", "updated_at"]
    return {
      lattice := ← fields.required? reading "lattice"
      phase := ← fields.required? reading "phase"
      updatedAt := ← fields.required? reading "updated_at" }

instance : JsonForm VersionInfo where
  write info :=
    .object [("version", write info.version), ("created_at", write info.createdAt),
      ("current", write info.current)]
  read? reading json := do
    let fields ← json.fields? ["version", "created_at", "current"]
    return {
      version := ← fields.required? reading "version"
      createdAt := ← fields.required? reading "created_at"
      current := ← fields.required? reading "current" }

/-- The names of what a store can be asked for. -/
def StoreRequest.names : NameTable StoreRequest where
  nameOf
    | .put => "put"
    | .getCurrent => "get_current"
    | .getVersion => "get_version"
    | .rollback => "rollback"
    | .delete => "delete"
    | .listVersions => "list_versions"
    | .listApplications => "list_applications"
    | .prune => "prune"
    | .setDeployment => "set_deployment"
    | .deployment => "deployment"
    | .listDeployments => "list_deployments"
  values :=
    [.put, .getCurrent, .getVersion, .rollback, .delete, .listVersions, .listApplications, .prune,
      .setDeployment, .deployment, .listDeployments]
  aliases := []

end Reconciler
