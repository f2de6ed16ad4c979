import Reconciler.Config.Environment
import Reconciler.Json.Parser
import Reconciler.Wire.Config

/-!
# Loading of settings

The settings of an engine are the usual ones, overridden by those of a file, overridden by those of
the environment. A setting need not be given in its own kind, as long as it can be understood as
one of that kind.
-/

namespace Reconciler

open Text

namespace Setting

mutual

/-- The setting that a JSON value stands for. -/
def ofJson : Json → Setting
  | .null => absent
  | .bool value => bool value
  | .integer value =>
    if -signBit ≤ value ∧ value < signBit then integer value
    else real (.ofMagnitude (value < 0) value.natAbs)
  | .real value => real value
  | .string content => text content
  | .array content => list (ofItems content)
  | .object content => table (ofMembers [] content)
  | .unkeepable => absent

/-- The settings that JSON values stand for. -/
def ofItems : List Json → List Setting
  | [] => []
  | item :: items => ofJson item :: ofItems items

/-- The entries that members of an object stand for, after those of earlier members. -/
def ofMembers (entries : List (String × Setting)) :
    List (String × Json) → List (String × Setting)
  | [] => entries
  | (name, value) :: members => ofMembers (replaceEntry name (ofJson value) entries) members

end

mutual

/-- A tree of settings without lists that have no items. -/
def withoutEmptyLists : Setting → Setting
  | table entries => table (entriesWithoutEmptyLists entries)
  | setting => setting

/-- The entries of a table without lists that have no items. -/
def entriesWithoutEmptyLists : List (String × Setting) → List (String × Setting)
  | [] => []
  | (_, list []) :: entries => entriesWithoutEmptyLists entries
  | (name, setting) :: entries =>
    (name, setting.withoutEmptyLists) :: entriesWithoutEmptyLists entries

end

/-- The settings in a text, by key. -/
def ofText? (content : String) : Option (List (String × Setting)) := do
  let json ← Json.parse? content
  guard json.isKeepable
  match ofJson json with
  | table entries => some entries
  | _ => none

/-- The greatest number that a setting may have. -/
def greatestNumber : Nat :=
  UInt64.size - 1

/-- A text as a number that is not negative. -/
def readNumber? (content : String) : Option Nat :=
  match content.toLower with
  | "true" => some 1
  | "on" => some 1
  | "yes" => some 1
  | "false" => some 0
  | "off" => some 0
  | "no" => some 0
  | _ =>
    let digits :=
      match content.toList with
      | '+' :: digits => digits
      | digits => digits
    let number := decimalNumber digits
    if digits ≠ [] ∧ digits.all isDecimalDigit ∧ number ≤ greatestNumber then some number else none

/-- A setting as a number that is not negative. -/
def number? : Setting → Option Nat
  | bool value => some value.toNat
  | integer value => if value < 0 then none else some value.toNat
  | real value => some (value.toNatWithin greatestNumber)
  | text content => readNumber? content
  | _ => none

/-- A setting as a number of 64 bits. -/
def long? (setting : Setting) : Option UInt64 :=
  setting.number?.map UInt64.ofNat

/-- A setting as a number of 32 bits. -/
def word? (setting : Setting) : Option UInt32 := do
  let number ← setting.number?
  guard (number < UInt32.size)
  return .ofNat number

/-- A setting as a truth value. -/
def flag? : Setting → Option Bool
  | bool value => some value
  | integer value => some (value != 0)
  | real value => some !value.isZero
  | text content =>
    match content.toLower with
    | "1" => some true
    | "true" => some true
    | "on" => some true
    | "yes" => some true
    | "0" => some false
    | "false" => some false
    | "off" => some false
    | "no" => some false
    | _ => none
  | _ => none

/-- A setting as a text. -/
def string? : Setting → Option String
  | bool value => some (if value then "true" else "false")
  | integer value => some (toString value)
  | real value => some value.write
  | text content => some content
  | _ => none

/-- A setting as a list of texts. -/
def strings? : Setting → Option (List String)
  | list items => items.mapM string?
  | _ => none

/-- A setting as one of several values with names, in whatever case. -/
def choice? {α : Type} (names : NameTable α) (setting : Setting) : Option α :=
  let named (name : String) : Option α :=
    names.values.find? fun value => (names.nameOf value).toLower == name.toLower
  match setting with
  | text name => named name
  | table [(name, _)] => named name
  | _ => none

/-- The settings of a section under their names; a list gives them in order. -/
def section? (names : List String) : Setting → Option (List (String × Setting))
  | table entries => some entries
  | list items => some (names.zip items)
  | _ => none

/-- A setting of a section, with a value of its own where it is not given. -/
def orElse? {α : Type} (entries : List (String × Setting)) (name : String)
    (read? : Setting → Option α) (default : α) : Option α :=
  match entries.lookup name with
  | some setting => read? setting
  | none => some default

end Setting

open Setting

/-- Reads the settings of the split of applications among engines. -/
def PartitionConfig.ofSetting? (setting : Setting) : Option PartitionConfig := do
  let entries ← setting.section? ["mode", "peers", "vnodes", "owned"]
  let standard := PartitionConfig.standard
  return {
    mode := ← orElse? entries "mode" (choice? PartitionMode.names) standard.mode
    peers := ← orElse? entries "peers" strings? standard.peers
    nodes := ← orElse? entries "vnodes" word? standard.nodes
    owned := ← orElse? entries "owned" strings? standard.owned }

/-- Reads who an engine is. -/
def EngineConfig.ofSetting? (setting : Setting) : Option EngineConfig := do
  let entries ← setting.section? ["instance_id", "partition"]
  let standard := EngineConfig.standard
  return {
    instanceId := ← orElse? entries "instance_id" string? standard.instanceId
    partition := ← orElse? entries "partition" PartitionConfig.ofSetting? standard.partition }

/-- Reads the settings of reconciliation. -/
def ReconcileConfig.ofSetting? (setting : Setting) : Option ReconcileConfig := do
  let entries ← setting.section?
    ["debounce_ms", "max_batch", "resync_interval_secs", "actor_channel_capacity"]
  let standard := ReconcileConfig.standard
  return {
    debounceMs := ← orElse? entries "debounce_ms" long? standard.debounceMs
    maxBatch := ← orElse? entries "max_batch" long? standard.maxBatch
    resyncIntervalSecs :=
      ← orElse? entries "resync_interval_secs" long? standard.resyncIntervalSecs
    channelCapacity :=
      ← orElse? entries "actor_channel_capacity" long? standard.channelCapacity }

/-- Reads the settings of dispatch. -/
def DispatchConfig.ofSetting? (setting : Setting) : Option DispatchConfig := do
  let entries ← setting.section?
    ["max_attempts", "base_backoff_ms", "max_backoff_ms", "ack_timeout_ms", "settle_ttl_ms",
      "reap_interval_ms"]
  let standard := DispatchConfig.standard
  return {
    maxAttempts := ← orElse? entries "max_attempts" word? standard.maxAttempts
    baseBackoffMs := ← orElse? entries "base_backoff_ms" long? standard.baseBackoffMs
    maxBackoffMs := ← orElse? entries "max_backoff_ms" long? standard.maxBackoffMs
    ackTimeoutMs := ← orElse? entries "ack_timeout_ms" long? standard.ackTimeoutMs
    settleTtlMs := ← orElse? entries "settle_ttl_ms" long? standard.settleTtlMs
    reapIntervalMs := ← orElse? entries "reap_interval_ms" long? standard.reapIntervalMs }

/-- Reads the settings of projection. -/
def ProjectorConfig.ofSetting? (setting : Setting) : Option ProjectorConfig := do
  let entries ← setting.section?
    ["host_interval_secs", "host_expiry_intervals", "event_log_limit"]
  let standard := ProjectorConfig.standard
  return {
    hostIntervalSecs := ← orElse? entries "host_interval_secs" long? standard.hostIntervalSecs
    hostExpiryIntervals :=
      ← orElse? entries "host_expiry_intervals" word? standard.hostExpiryIntervals
    eventLogLimit := ← orElse? entries "event_log_limit" long? standard.eventLogLimit }

/-- Reads the settings of logging. -/
def LoggingConfig.ofSetting? (setting : Setting) : Option LoggingConfig := do
  let entries ← setting.section? ["level", "json"]
  let standard := LoggingConfig.standard
  return {
    level := ← orElse? entries "level" string? standard.level
    json := ← orElse? entries "json" flag? standard.json }

namespace ControlConfig

/-- Reads all settings of an engine. -/
def ofSetting? (setting : Setting) : Option ControlConfig := do
  let entries ← setting.section? ["engine", "reconcile", "dispatch", "projector", "logging"]
  return {
    engine := ← orElse? entries "engine" EngineConfig.ofSetting? .standard
    reconcile := ← orElse? entries "reconcile" ReconcileConfig.ofSetting? .standard
    dispatch := ← orElse? entries "dispatch" DispatchConfig.ofSetting? .standard
    projector := ← orElse? entries "projector" ProjectorConfig.ofSetting? .standard
    logging := ← orElse? entries "logging" LoggingConfig.ofSetting? .standard }

/-- The usual settings; those that are lists without items need not be given. -/
def usualSettings : Setting :=
  (Setting.ofJson (JsonForm.write ControlConfig.standard)).withoutEmptyLists

/-- The settings of an engine, given the text of a file, if there is one, and the environment. -/
def load? (file : Option String) (environment : List (String × String)) :
    Option ControlConfig := do
  let fileEntries ←
    match file with
    | some content => ofText? content
    | none => some []
  ofSetting? ((usualSettings.overrideWith fileEntries).overrideWith (ofEnvironment environment))

end ControlConfig

end Reconciler
