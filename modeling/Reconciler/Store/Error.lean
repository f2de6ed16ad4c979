import Reconciler.Manifest.Validation

/-!
# Errors of the manifest store

Why a store has not done what it was asked for.
-/

namespace Reconciler

/-- Why a request to a store has failed. -/
inductive StoreError where
  | notFound (app : AppName)
  | versionNotFound (app : AppName) (version : String)
  | duplicateVersion (app : AppName) (version : String)
  | invalid (problem : ValidationError)
  | unavailable (reason : String)
deriving DecidableEq, Inhabited, Repr

namespace StoreError

/-- The text that describes an error. -/
def message : StoreError → String
  | notFound app => "Application not found: " ++ app.text
  | versionNotFound app version =>
    "Version " ++ version ++ " not found for application " ++ app.text
  | duplicateVersion app version =>
    "Version " ++ version ++ " already exists for application " ++ app.text
  | invalid problem => "Invalid manifest: " ++ problem.message
  | unavailable reason => "Manifest store unavailable: " ++ reason

/-- Whether an engine cannot go on after an error: the store itself is out of reach. -/
def isFatal : StoreError → Bool
  | unavailable _ => true
  | _ => false

end StoreError

end Reconciler
