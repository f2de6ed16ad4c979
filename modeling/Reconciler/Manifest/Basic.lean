import Reconciler.Identifier

/-!
# Manifests

A manifest says what an application should look like: its components, how many instances of each
should run and where, and which links lead from one component to another.
-/

namespace Reconciler

/-- What kind of thing a component is. -/
inductive ComponentKind where
  /-- A unit of code that hosts execute. -/
  | component
  /-- A capability that a host provides. -/
  | provider
deriving DecidableEq, Inhabited, Repr

/-- A share of the instances of a component, for the hosts with the required labels. -/
structure WeightedTarget where
  name : String
  requirements : Labels
  weight : UInt32
deriving DecidableEq, Inhabited

/-- How many instances of a component should run, and how they are shared out among hosts. -/
structure SpreadScaler where
  instances : UInt32
  spread : List WeightedTarget
deriving DecidableEq, Inhabited

/-- Where a link leads. -/
inductive LinkTarget where
  /-- A component of the same manifest, by its name there. -/
  | component (name : String)
  /-- A thing outside, under an identity that is used as it is. -/
  | external (identity : String)
deriving DecidableEq, Inhabited, Repr

/-- A link from the component that declares it, through an interface of a package. -/
structure LinkDefinition where
  name : String
  nameSpace : String
  package : String
  interfaces : List String
  target : LinkTarget
  sourceConfig : Labels
deriving DecidableEq, Inhabited

/-- What a component may declare besides its image. -/
inductive Trait where
  | spreadScaler (scaler : SpreadScaler)
  | link (definition : LinkDefinition)
deriving DecidableEq, Inhabited

/-- A part of an application. -/
structure Component where
  name : String
  kind : ComponentKind
  imageRef : String
  traits : List Trait
deriving DecidableEq, Inhabited

/-- The desired state of an application. -/
structure Manifest where
  name : AppName
  version : String
  annotations : Labels
  components : List Component
deriving DecidableEq, Inhabited

namespace WeightedTarget

/-- The weight of a target that names none. -/
def defaultWeight : UInt32 :=
  100

/-- A target without requirements. -/
def new (name : String) (weight : UInt32) : WeightedTarget :=
  ⟨name, ∅, weight⟩

/-- The target with one more required label. -/
def require (target : WeightedTarget) (key value : String) : WeightedTarget :=
  { target with requirements := target.requirements.insert key value }

/-- Whether a host with these labels may run instances for the target. -/
def accepts (target : WeightedTarget) (labels : Labels) : Bool :=
  labels.satisfy target.requirements

end WeightedTarget

namespace SpreadScaler

/-- A scaler without targets. -/
def new (instances : UInt32) : SpreadScaler :=
  ⟨instances, []⟩

/-- The scaler with one more target, after the others. -/
def withTarget (scaler : SpreadScaler) (target : WeightedTarget) : SpreadScaler :=
  { scaler with spread := scaler.spread ++ [target] }

end SpreadScaler

namespace LinkDefinition

/-- The name of a link that declares none. -/
def defaultName : String :=
  "default"

/-- A link with the default name, through no interface yet. -/
def new (nameSpace package : String) (target : LinkTarget) : LinkDefinition :=
  ⟨defaultName, nameSpace, package, [], target, ∅⟩

/-- The link with one more interface, after the others. -/
def withInterface (link : LinkDefinition) (name : String) : LinkDefinition :=
  { link with interfaces := link.interfaces ++ [name] }

end LinkDefinition

namespace Component

/-- A component without traits. -/
def new (name : String) (kind : ComponentKind) (imageRef : String) : Component :=
  ⟨name, kind, imageRef, []⟩

/-- The component with one more trait, after the others. -/
def withTrait (component : Component) (trait : Trait) : Component :=
  { component with traits := component.traits ++ [trait] }

/-- The spread scalers that a component declares, in order. -/
def scalers (component : Component) : List SpreadScaler :=
  component.traits.filterMap fun trait =>
    match trait with
    | .spreadScaler scaler => some scaler
    | .link _ => none

/-- The links that a component declares, in order. -/
def links (component : Component) : List LinkDefinition :=
  component.traits.filterMap fun trait =>
    match trait with
    | .spreadScaler _ => none
    | .link definition => some definition

/-- The scaler of a component; without one, nobody manages how many instances it has. -/
def scaler? (component : Component) : Option SpreadScaler :=
  component.scalers.head?

end Component

namespace Manifest

/-- A manifest without components. -/
def new (name : AppName) (version : String) : Manifest :=
  ⟨name, version, ∅, []⟩

/-- The manifest with one more component, after the others. -/
def withComponent (manifest : Manifest) (component : Component) : Manifest :=
  { manifest with components := manifest.components ++ [component] }

/-- The identity in its lattice of a component of the manifest. -/
def componentId (manifest : Manifest) (component : Component) : ComponentId :=
  ComponentId.scoped manifest.name component.name

/-- The first component with a name. -/
def component? (manifest : Manifest) (name : String) : Option Component :=
  manifest.components.find? fun component => component.name == name

end Manifest

end Reconciler
