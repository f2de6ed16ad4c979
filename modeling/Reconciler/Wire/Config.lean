import Reconciler.Config.Basic
import Reconciler.Json.Form

/-!
# JSON forms of settings

Every section and every setting may be left out.
-/

namespace Reconciler

open JsonForm

/-- The names of the ways to split applications. -/
def PartitionMode.names : NameTable PartitionMode where
  nameOf
    | .single => "single"
    | .consistentHash => "consistent_hash"
    | .assigned => "static"
  values := [.single, .consistentHash, .assigned]
  aliases := []

instance : JsonForm PartitionMode :=
  PartitionMode.names.form

instance : JsonForm PartitionConfig where
  write config :=
    .object [("mode", write config.mode), ("peers", write config.peers),
      ("vnodes", write config.nodes), ("owned", write config.owned)]
  read? reading json := do
    let fields ← json.fields? ["mode", "peers", "vnodes", "owned"]
    let standard := PartitionConfig.standard
    return {
      mode := ← fields.orElse? reading "mode" standard.mode
      peers := ← fields.orElse? reading "peers" standard.peers
      nodes := ← fields.orElse? reading "vnodes" standard.nodes
      owned := ← fields.orElse? reading "owned" standard.owned }

instance : JsonForm EngineConfig where
  write config :=
    .object [("instance_id", write config.instanceId), ("partition", write config.partition)]
  read? reading json := do
    let fields ← json.fields? ["instance_id", "partition"]
    let standard := EngineConfig.standard
    return {
      instanceId := ← fields.orElse? reading "instance_id" standard.instanceId
      partition := ← fields.orElse? reading "partition" standard.partition }

instance : JsonForm ReconcileConfig where
  write config :=
    .object [("debounce_ms", write config.debounceMs), ("max_batch", write config.maxBatch),
      ("resync_interval_secs", write config.resyncIntervalSecs),
      ("actor_channel_capacity", write config.channelCapacity)]
  read? reading json := do
    let fields ← json.fields?
      ["debounce_ms", "max_batch", "resync_interval_secs", "actor_channel_capacity"]
    let standard := ReconcileConfig.standard
    return {
      debounceMs := ← fields.orElse? reading "debounce_ms" standard.debounceMs
      maxBatch := ← fields.orElse? reading "max_batch" standard.maxBatch
      resyncIntervalSecs :=
        ← fields.orElse? reading "resync_interval_secs" standard.resyncIntervalSecs
      channelCapacity :=
        ← fields.orElse? reading "actor_channel_capacity" standard.channelCapacity }

instance : JsonForm DispatchConfig where
  write config :=
    .object [("max_attempts", write config.maxAttempts),
      ("base_backoff_ms", write config.baseBackoffMs),
      ("max_backoff_ms", write config.maxBackoffMs), ("ack_timeout_ms", write config.ackTimeoutMs),
      ("settle_ttl_ms", write config.settleTtlMs),
      ("reap_interval_ms", write config.reapIntervalMs)]
  read? reading json := do
    let fields ← json.fields?
      ["max_attempts", "base_backoff_ms", "max_backoff_ms", "ack_timeout_ms", "settle_ttl_ms",
        "reap_interval_ms"]
    let standard := DispatchConfig.standard
    return {
      maxAttempts := ← fields.orElse? reading "max_attempts" standard.maxAttempts
      baseBackoffMs := ← fields.orElse? reading "base_backoff_ms" standard.baseBackoffMs
      maxBackoffMs := ← fields.orElse? reading "max_backoff_ms" standard.maxBackoffMs
      ackTimeoutMs := ← fields.orElse? reading "ack_timeout_ms" standard.ackTimeoutMs
      settleTtlMs := ← fields.orElse? reading "settle_ttl_ms" standard.settleTtlMs
      reapIntervalMs := ← fields.orElse? reading "reap_interval_ms" standard.reapIntervalMs }

instance : JsonForm ProjectorConfig where
  write config :=
    .object [("host_interval_secs", write config.hostIntervalSecs),
      ("host_expiry_intervals", write config.hostExpiryIntervals),
      ("event_log_limit", write config.eventLogLimit)]
  read? reading json := do
    let fields ← json.fields? ["host_interval_secs", "host_expiry_intervals", "event_log_limit"]
    let standard := ProjectorConfig.standard
    return {
      hostIntervalSecs := ← fields.orElse? reading "host_interval_secs" standard.hostIntervalSecs
      hostExpiryIntervals :=
        ← fields.orElse? reading "host_expiry_intervals" standard.hostExpiryIntervals
      eventLogLimit := ← fields.orElse? reading "event_log_limit" standard.eventLogLimit }

instance : JsonForm LoggingConfig where
  write config := .object [("level", write config.level), ("json", write config.json)]
  read? reading json := do
    let fields ← json.fields? ["level", "json"]
    let standard := LoggingConfig.standard
    return {
      level := ← fields.orElse? reading "level" standard.level
      json := ← fields.orElse? reading "json" standard.json }

instance : JsonForm ControlConfig where
  write config :=
    .object [("engine", write config.engine), ("reconcile", write config.reconcile),
      ("dispatch", write config.dispatch), ("projector", write config.projector),
      ("logging", write config.logging)]
  read? reading json := do
    let fields ← json.fields? ["engine", "reconcile", "dispatch", "projector", "logging"]
    return {
      engine := ← fields.orElse? reading "engine" .standard
      reconcile := ← fields.orElse? reading "reconcile" .standard
      dispatch := ← fields.orElse? reading "dispatch" .standard
      projector := ← fields.orElse? reading "projector" .standard
      logging := ← fields.orElse? reading "logging" .standard }

end Reconciler
