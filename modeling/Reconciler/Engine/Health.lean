import Reconciler.Time.Timestamp

/-!
# Health of an engine

An engine that meets a problem it cannot work around stops acting until an operator says that the
problem is gone.
-/

namespace Reconciler

/-- Whether an engine acts, and if not, why and since when. -/
inductive EngineHealth where
  | healthy
  | unhealthy (reason : String) (since : Timestamp)
deriving DecidableEq, Inhabited, Repr

/-- Whether an engine acts. -/
def EngineHealth.isHealthy : EngineHealth → Bool
  | healthy => true
  | unhealthy .. => false

end Reconciler
