import Reconciler.Dispatch.Command
import Reconciler.Wire.Event

/-!
# JSON forms of actions and commands

A required action is tagged with `action`, the result of an acknowledgement with `result`.
-/

namespace Reconciler

open JsonForm

/-- The names of the kinds of actions. -/
def ActionKind.names : NameTable ActionKind where
  nameOf := ActionKind.name
  values := [.start, .stop, .addLink, .removeLink]
  aliases := []

instance : JsonForm ActionKind :=
  ActionKind.names.form

instance : JsonForm RequiredAction where
  write
    | .startInstances component componentKind imageRef host selector count =>
      .object [("action", .string "start_instances"), ("component", write component),
        ("component_kind", write componentKind), ("image_ref", write imageRef),
        ("host", write host), ("selector", write selector), ("count", write count)]
    | .stopInstances component host instances =>
      .object [("action", .string "stop_instances"), ("component", write component),
        ("host", write host), ("instances", write instances)]
    | .addLink link => (write link).tagWith "action" "add_link"
    | .removeLink key => (write key).tagWith "action" "remove_link"
  read? _ json := do
    let (name, record) ← json.tagged? "action"
    match name with
    | "start_instances" =>
      let fields ← record.fields?
        ["component", "component_kind", "image_ref", "host", "selector", "count"]
      return .startInstances (← fields.required? .tagged "component")
        (← fields.required? .tagged "component_kind") (← fields.required? .tagged "image_ref")
        (← fields.required? .tagged "host") (← fields.required? .tagged "selector")
        (← fields.required? .tagged "count")
    | "stop_instances" =>
      let fields ← record.fields? ["component", "host", "instances"]
      return .stopInstances (← fields.required? .tagged "component")
        (← fields.required? .tagged "host") (← fields.required? .tagged "instances")
    | "add_link" => return .addLink (← read? .tagged record)
    | "remove_link" => return .removeLink (← read? .tagged record)
    | _ => none

instance : JsonForm CommandHandle where
  write handle := write handle.uuid
  read? reading json := (read? reading json).map CommandHandle.mk

instance : JsonForm Command where
  write command :=
    .object [("handle", write command.handle), ("key", write command.key),
      ("lattice", write command.lattice), ("app", write command.app),
      ("attempt", write command.attempt), ("issued_at", write command.issuedAt),
      ("annotations", write command.annotations), ("action", write command.action)]
  read? reading json := do
    let fields ← json.fields?
      ["handle", "key", "lattice", "app", "attempt", "issued_at", "annotations", "action"]
    return {
      handle := ← fields.required? reading "handle"
      key := ← fields.required? reading "key"
      lattice := ← fields.required? reading "lattice"
      app := ← fields.required? reading "app"
      attempt := ← fields.required? reading "attempt"
      issuedAt := ← fields.required? reading "issued_at"
      annotations := ← fields.required? reading "annotations"
      action := ← fields.required? reading "action" }

instance : JsonForm AckResult where
  write
    | .success => .object [("result", .string "success")]
    | .failure retryable reason =>
      .object [("result", .string "failure"), ("retryable", write retryable),
        ("reason", write reason)]
  read? _ json := do
    let (name, record) ← json.tagged? "result"
    match name with
    | "success" =>
      let _ ← record.fields? []
      return .success
    | "failure" =>
      let fields ← record.fields? ["retryable", "reason"]
      return .failure (← fields.required? .tagged "retryable")
        (← fields.required? .tagged "reason")
    | _ => none

instance : JsonForm CommandAck where
  write ack :=
    .object [("handle", write ack.handle), ("key", write ack.key), ("result", write ack.result)]
  read? reading json := do
    let fields ← json.fields? ["handle", "key", "result"]
    return {
      handle := ← fields.required? reading "handle"
      key := ← fields.required? reading "key"
      result := ← fields.required? reading "result" }

instance : JsonForm FailureReport where
  write report :=
    .object [("key", write report.key), ("component", write report.component),
      ("attempts", write report.attempts), ("reason", write report.reason),
      ("failed_at", write report.failedAt)]
  read? reading json := do
    let fields ← json.fields? ["key", "component", "attempts", "reason", "failed_at"]
    return {
      key := ← fields.required? reading "key"
      component := ← fields.required? reading "component"
      attempts := ← fields.required? reading "attempts"
      reason := ← fields.required? reading "reason"
      failedAt := ← fields.required? reading "failed_at" }

end Reconciler
