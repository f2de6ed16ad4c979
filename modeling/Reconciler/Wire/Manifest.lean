import Reconciler.Manifest.Summary
import Reconciler.Manifest.Validation

/-!
# JSON forms of manifests

A manifest is a record of records; a trait is tagged with `type`.
-/

namespace Reconciler

open JsonForm

/-- The names of the kinds of components. -/
def ComponentKind.names : NameTable ComponentKind where
  nameOf
    | .component => "component"
    | .provider => "provider"
  values := [.component, .provider]
  aliases := [("capability", .provider)]

instance : JsonForm ComponentKind :=
  ComponentKind.names.form

instance : JsonForm WeightedTarget where
  write target :=
    .object [("name", write target.name), ("requirements", write target.requirements),
      ("weight", write target.weight)]
  read? reading json := do
    let fields ← json.fields? ["name", "requirements", "weight"]
    return {
      name := ← fields.orElse? reading "name" ""
      requirements := ← fields.orElse? reading "requirements" ∅
      weight := ← fields.orElse? reading "weight" WeightedTarget.defaultWeight }

instance : JsonForm SpreadScaler where
  write scaler := .object [("instances", write scaler.instances), ("spread", write scaler.spread)]
  read? reading json := do
    let fields ← json.fields? ["instances", "spread"]
    return {
      instances := ← fields.required? reading "instances"
      spread := ← fields.orElse? reading "spread" [] }

instance : JsonForm LinkTarget where
  write
    | .component name => .object [("component", write name)]
    | .external identity => .object [("external", write identity)]
  read? reading json := do
    let (name, content) ← json.variant?
    match name with
    | "component" => return .component (← content.value? reading)
    | "external" => return .external (← content.value? reading)
    | _ => none

instance : JsonForm LinkDefinition where
  write link :=
    .object [("name", write link.name), ("namespace", write link.nameSpace),
      ("package", write link.package), ("interfaces", write link.interfaces),
      ("target", write link.target), ("source_config", write link.sourceConfig)]
  read? reading json := do
    let fields ← json.fields?
      ["name", "namespace", "package", "interfaces", "target", "source_config"]
    return {
      name := ← fields.orElse? reading "name" LinkDefinition.defaultName
      nameSpace := ← fields.required? reading "namespace"
      package := ← fields.required? reading "package"
      interfaces := ← fields.orElse? reading "interfaces" []
      target := ← fields.required? reading "target"
      sourceConfig := ← fields.orElse? reading "source_config" ∅ }

instance : JsonForm Trait where
  write
    | .spreadScaler scaler => (write scaler).tagWith "type" "spread_scaler"
    | .link definition => (write definition).tagWith "type" "link"
  read? _ json := do
    let (name, record) ← json.tagged? "type"
    match name with
    | "spread_scaler" => return .spreadScaler (← read? .tagged record)
    | "link" => return .link (← read? .tagged record)
    | _ => none

instance : JsonForm Component where
  write component :=
    .object [("name", write component.name), ("kind", write component.kind),
      ("image_ref", write component.imageRef), ("traits", write component.traits)]
  read? reading json := do
    let fields ← json.fields? ["name", "kind", "image_ref", "traits"]
    return {
      name := ← fields.required? reading "name"
      kind := ← fields.required? reading "kind"
      imageRef := ← fields.required? reading "image_ref"
      traits := ← fields.orElse? reading "traits" [] }

instance : JsonForm Manifest where
  write manifest :=
    .object [("name", write manifest.name), ("version", write manifest.version),
      ("annotations", write manifest.annotations), ("components", write manifest.components)]
  read? reading json := do
    let fields ← json.fields? ["name", "version", "annotations", "components"]
    return {
      name := ← fields.required? reading "name"
      version := ← fields.orElse? reading "version" ""
      annotations := ← fields.orElse? reading "annotations" ∅
      components := ← fields.orElse? reading "components" [] }

instance : JsonForm ComponentSummary where
  write summary :=
    .object [("name", write summary.name), ("kind", write summary.kind),
      ("image_ref", write summary.imageRef), ("desired_instances", write summary.desiredInstances),
      ("links", write summary.links)]
  read? reading json := do
    let fields ← json.fields? ["name", "kind", "image_ref", "desired_instances", "links"]
    return {
      name := ← fields.required? reading "name"
      kind := ← fields.required? reading "kind"
      imageRef := ← fields.required? reading "image_ref"
      desiredInstances := ← fields.optional? reading "desired_instances"
      links := ← fields.required? reading "links" }

instance : JsonForm ManifestSummary where
  write summary :=
    .object [("name", write summary.name), ("version", write summary.version),
      ("components", write summary.components)]
  read? reading json := do
    let fields ← json.fields? ["name", "version", "components"]
    return {
      name := ← fields.required? reading "name"
      version := ← fields.required? reading "version"
      components := ← fields.required? reading "components" }

end Reconciler
