import Reconciler.Manifest.Basic

/-!
# Summaries of manifests

What a status query shows of a manifest.
-/

namespace Reconciler

/-- A component in short. -/
structure ComponentSummary where
  name : String
  kind : ComponentKind
  imageRef : String
  /-- The number of instances that its scaler asks for, if it has one. -/
  desiredInstances : Option UInt32
  links : UInt64
deriving DecidableEq, Inhabited

/-- A manifest in short. -/
structure ManifestSummary where
  name : AppName
  version : String
  components : List ComponentSummary
deriving DecidableEq, Inhabited

/-- The summary of a component. -/
def Component.summary (component : Component) : ComponentSummary :=
  ⟨component.name, component.kind, component.imageRef,
    component.scaler?.map SpreadScaler.instances, component.links.length.toUInt64⟩

/-- The summary of a manifest. -/
def Manifest.summary (manifest : Manifest) : ManifestSummary :=
  ⟨manifest.name, manifest.version, manifest.components.map Component.summary⟩

end Reconciler
