import Reconciler.Dispatch.Error
import Reconciler.Store.Error

/-!
# Errors of engines

Why an engine has not done what an operator asked for.
-/

namespace Reconciler

/-- Why a request to an engine has failed. -/
inductive ControlError where
  | store (problem : StoreError)
  | dispatch (problem : DispatchError)
  | notAssigned (app : AppName) (engine : String)
  | alreadyDeployed (app : AppName) (lattice : LatticeId)
  | notDeployed (app : AppName)
  | unhealthy (reason : String)
  | config (problem : String)
deriving DecidableEq, Inhabited, Repr

namespace ControlError

/-- The text that describes an error. -/
def message : ControlError → String
  | store problem => "Manifest error: " ++ problem.message
  | dispatch problem => "Dispatch error: " ++ problem.message
  | notAssigned app engine =>
    "Application " ++ app.text ++ " is not assigned to engine " ++ engine
  | alreadyDeployed app lattice =>
    "Application " ++ app.text ++ " is already deployed to lattice " ++ lattice.text
  | notDeployed app => "Application " ++ app.text ++ " is not deployed"
  | unhealthy reason => "Engine unhealthy: " ++ reason
  | config problem => "Configuration error: " ++ problem

/-- Whether an engine stops acting after an error. -/
def isFatal : ControlError → Bool
  | store problem => problem.isFatal
  | dispatch problem => problem.isFatal
  | unhealthy _ => true
  | _ => false

/-- What is wrong with a manifest, where that is why it was not taken. -/
def validation? : ControlError → Option ValidationError
  | store (.invalid problem) => some problem
  | _ => none

end ControlError

end Reconciler
