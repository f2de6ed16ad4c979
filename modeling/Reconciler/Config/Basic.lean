import Reconciler.Dispatch.RetryPolicy
import Reconciler.Partition.Strategy

/-!
# Configuration

The settings of an engine, and what follows from them.
-/

namespace Reconciler

/-- How the applications are split among engines. -/
inductive PartitionMode where
  | single
  | consistentHash
  | assigned
deriving DecidableEq, Inhabited, Repr

/-- The settings of the split of applications among engines. -/
structure PartitionConfig where
  mode : PartitionMode
  /-- All engines of the ring, this one included. -/
  peers : List String
  /-- The number of points that each engine has on the ring. -/
  nodes : UInt32
  /-- The applications that are assigned at first. -/
  owned : List String
deriving DecidableEq, Inhabited, Repr

/-- Who an engine is. -/
structure EngineConfig where
  instanceId : String
  partition : PartitionConfig
deriving DecidableEq, Inhabited, Repr

/-- The settings of reconciliation. -/
structure ReconcileConfig where
  /-- How long to wait for more after a change was observed, in milliseconds. -/
  debounceMs : UInt64
  /-- How many queued triggers go into one cycle at most, besides the first. -/
  maxBatch : UInt64
  /-- The time between two rounds of evaluation of everything, in seconds. -/
  resyncIntervalSecs : UInt64
  /-- How many triggers may be queued for an application. -/
  channelCapacity : UInt64
deriving DecidableEq, Inhabited, Repr

/-- The settings of dispatch. -/
structure DispatchConfig where
  maxAttempts : UInt32
  baseBackoffMs : UInt64
  maxBackoffMs : UInt64
  ackTimeoutMs : UInt64
  /-- How long finished commands are remembered, in milliseconds. -/
  settleTtlMs : UInt64
  /-- The time between two sweeps over the commands, in milliseconds. -/
  reapIntervalMs : UInt64
deriving DecidableEq, Inhabited, Repr

/-- The settings of projection. -/
structure ProjectorConfig where
  /-- The time between two heartbeats of a host, in seconds. -/
  hostIntervalSecs : UInt64
  /-- How many heartbeats a host may miss. -/
  hostExpiryIntervals : UInt32
  /-- How many events the log of a lattice keeps. -/
  eventLogLimit : UInt64
deriving DecidableEq, Inhabited, Repr

/-- The settings of logging. -/
structure LoggingConfig where
  level : String
  json : Bool
deriving DecidableEq, Inhabited, Repr

/-- All settings of an engine. -/
structure ControlConfig where
  engine : EngineConfig
  reconcile : ReconcileConfig
  dispatch : DispatchConfig
  projector : ProjectorConfig
  logging : LoggingConfig
deriving DecidableEq, Inhabited, Repr

/-- One engine has everything. -/
def PartitionConfig.standard : PartitionConfig :=
  ⟨.single, [], 64, []⟩

/-- The name of an engine that has no other. -/
def EngineConfig.standard : EngineConfig :=
  ⟨"engine-0", .standard⟩

/-- The settings of reconciliation unless told otherwise. -/
def ReconcileConfig.standard : ReconcileConfig :=
  ⟨250, 256, 30, 64⟩

/-- The settings of dispatch unless told otherwise. -/
def DispatchConfig.standard : DispatchConfig :=
  ⟨5, 500, 30000, 10000, 60000, 1000⟩

/-- The settings of projection unless told otherwise. -/
def ProjectorConfig.standard : ProjectorConfig :=
  ⟨30, 2, 10000⟩

/-- The settings of logging unless told otherwise. -/
def LoggingConfig.standard : LoggingConfig :=
  ⟨"info", false⟩

/-- The settings of an engine unless told otherwise. -/
def ControlConfig.standard : ControlConfig :=
  ⟨.standard, .standard, .standard, .standard, .standard⟩

/-- Settings with short times. -/
def ControlConfig.development : ControlConfig :=
  { ControlConfig.standard with
    reconcile := { ReconcileConfig.standard with debounceMs := 10, resyncIntervalSecs := 5 }
    dispatch := ⟨5, 50, 1000, 1000, 5000, 100⟩ }

namespace PartitionConfig

/-- The strategy of an engine; a ring that the engine is no peer of is a problem. -/
def build (config : PartitionConfig) (instanceId : String) : Except String Partition :=
  match config.mode with
  | .single => .ok .everything
  | .consistentHash =>
    (RingMember.new? Partition.ringHash instanceId config.peers config.nodes.toNat).map .ring
  | .assigned => .ok (.assigned (.ofList (config.owned.map Identifier.mk)))

end PartitionConfig

namespace ReconcileConfig

/-- How long to wait for more after a change was observed, in milliseconds. -/
def debounce (config : ReconcileConfig) : Nat :=
  config.debounceMs.toNat

/-- The time between two rounds of evaluation, in seconds. -/
def resyncSeconds (config : ReconcileConfig) : Nat :=
  max config.resyncIntervalSecs.toNat 1

/-- How many queued triggers go into one cycle at most, besides the first. -/
def batch (config : ReconcileConfig) : Nat :=
  max config.maxBatch.toNat 1

/-- How many triggers may be queued for an application. -/
def capacity (config : ReconcileConfig) : Nat :=
  max config.channelCapacity.toNat 1

end ReconcileConfig

namespace DispatchConfig

/-- The time between two sweeps over the commands, in milliseconds. -/
def reapInterval (config : DispatchConfig) : Nat :=
  max config.reapIntervalMs.toNat 1

/-- The limits on the life of commands. -/
def policy (config : DispatchConfig) : RetryPolicy where
  maxAttempts := max config.maxAttempts 1
  baseBackoff := config.baseBackoffMs.toNat
  maxBackoff := config.maxBackoffMs.toNat
  ackTimeout := config.ackTimeoutMs.toNat
  entryTtl := config.settleTtlMs.toNat

end DispatchConfig

namespace ProjectorConfig

/-- The time between two heartbeats of a host, in seconds. -/
def hostSeconds (config : ProjectorConfig) : Nat :=
  max config.hostIntervalSecs.toNat 1

end ProjectorConfig

end Reconciler
