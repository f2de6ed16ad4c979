import Reconciler.Manifest.Basic
import Reconciler.Text.Blank

/-!
# Validation of manifests

`Manifest.problem?` names the first thing that is wrong with a manifest: first its name, then the
name and image of each component in order, then the traits of each component in order.
-/

namespace Reconciler

/-- What may be wrong with a manifest. -/
inductive ValidationError where
  | emptyName
  | nameMismatch (expected found : String)
  | emptyComponentName
  | duplicateComponent (component : String)
  | missingImage (component : String)
  | duplicateScaler (component : String)
  | undeclaredLinkTarget (component target : String)
  | duplicateLink (component link : String)
deriving DecidableEq, Inhabited, Repr

namespace ValidationError

/-- The text that describes a problem. -/
def message : ValidationError → String
  | emptyName => "Application name must not be empty"
  | nameMismatch expected found => "Manifest is for " ++ found ++ ", expected " ++ expected
  | emptyComponentName => "Component name must not be empty"
  | duplicateComponent component => "Duplicate component name: " ++ component
  | missingImage component => "Component " ++ component ++ " does not reference an image"
  | duplicateScaler component =>
    "Component " ++ component ++ " declares more than one spread scaler"
  | undeclaredLinkTarget component target =>
    "Component " ++ component ++ " links to undeclared component " ++ target
  | duplicateLink component link =>
    "Component " ++ component ++ " declares link " ++ link ++ " more than once"

end ValidationError

namespace LinkDefinition

/-- What tells the links of one component apart. -/
def identity (link : LinkDefinition) : String × String × String :=
  (link.name, link.nameSpace, link.package)

/-- A link as messages name it. -/
def label (link : LinkDefinition) : String :=
  link.nameSpace ++ ":" ++ link.package ++ "/" ++ link.name

end LinkDefinition

namespace Component

/-- The first problem with the name or the image of a component, after others with these names. -/
def headProblem? (seen : List String) (component : Component) : Option ValidationError :=
  if Text.isBlank component.name then some .emptyComponentName
  else if seen.contains component.name then some (.duplicateComponent component.name)
  else if Text.isBlank component.imageRef then some (.missingImage component.name)
  else none

/-- The first problem with the names and images of components, after others with these names. -/
def firstHeadProblem? (seen : List String) : List Component → Option ValidationError
  | [] => none
  | component :: rest =>
    (component.headProblem? seen).or (firstHeadProblem? (component.name :: seen) rest)

/-- The first problem with links of a component, after other links with these identities. -/
def linkProblem? (component : Component) (declared : List String)
    (seen : List (String × String × String)) : List LinkDefinition → Option ValidationError
  | [] => none
  | link :: rest =>
    let undeclared : Option ValidationError :=
      match link.target with
      | .component target =>
        if declared.contains target then none
        else some (.undeclaredLinkTarget component.name target)
      | .external _ => none
    let repeated : Option ValidationError :=
      if seen.contains link.identity then some (.duplicateLink component.name link.label) else none
    (undeclared.or repeated).or (component.linkProblem? declared (link.identity :: seen) rest)

/-- The first problem with the traits of a component, in a manifest that declares these names. -/
def traitProblem? (component : Component) (declared : List String) : Option ValidationError :=
  if 1 < component.scalers.length then some (.duplicateScaler component.name)
  else component.linkProblem? declared [] component.links

end Component

namespace Manifest

/-- The names of the components that a manifest declares. -/
def componentNames (manifest : Manifest) : List String :=
  manifest.components.map Component.name

/-- The first problem with a manifest, if it has any. -/
def problem? (manifest : Manifest) : Option ValidationError :=
  if Text.isBlank manifest.name.text then some .emptyName
  else
    (Component.firstHeadProblem? [] manifest.components).or
      (manifest.components.findSome? fun component =>
        component.traitProblem? manifest.componentNames)

/-- Whether nothing is wrong with a manifest. -/
def isValid (manifest : Manifest) : Bool :=
  manifest.problem?.isNone

end Manifest

end Reconciler
