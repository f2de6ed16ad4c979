import Reconciler.Placement.Spread

/-!
# Evaluation

`evaluate` compares a manifest with the observed state of a lattice and lists the actions that are
missing: for each component those of its scaler, then the stops of instances of components that the
manifest does not declare, then the links to add and to remove. Only what belongs to the application
is touched.
-/

namespace Reconciler

/-- The link that a definition of a component of an application asks for. -/
def LinkDefinition.resolve (link : LinkDefinition) (app : AppName) (source : ComponentId) :
    ActiveLink where
  key := ⟨source, link.name, link.nameSpace, link.package⟩
  target :=
    match link.target with
    | .component name => (ComponentId.scoped app name).text
    | .external identity => identity
  interfaces := link.interfaces
  sourceConfig := link.sourceConfig
  owner := some app

namespace Manifest

/-- The links that a manifest asks for, in the order of their declaration. -/
def linkList (manifest : Manifest) : List ActiveLink :=
  manifest.components.flatMap fun component =>
    component.links.map fun link => link.resolve manifest.name (manifest.componentId component)

/-- The links that a manifest asks for by key; of several with one key, the last. -/
def desiredLinks (manifest : Manifest) : SortedMap LinkKey ActiveLink :=
  .ofList (manifest.linkList.map fun link => (link.key, link))

/-- The identities of the components that a manifest declares. -/
def declaredIds (manifest : Manifest) : List ComponentId :=
  manifest.components.map manifest.componentId

/-- The actions for the scalers of a manifest, in the order of their declaration. -/
def scalerActions (manifest : Manifest) (observed : ObservedState) : List RequiredAction :=
  manifest.components.flatMap fun component =>
    component.scalers.flatMap fun scaler =>
      Spread.evaluate manifest.name (manifest.componentId component) component scaler observed

/-- The instances of an application whose components its manifest does not declare. -/
def orphans (manifest : Manifest) (observed : ObservedState) : List PlacedInstance :=
  (observed.managedInstances manifest.name).filter fun placed =>
    !manifest.declaredIds.contains placed.record.component

/-- The actions that stop orphans, by component and then by host. -/
def orphanActions (manifest : Manifest) (observed : ObservedState) : List RequiredAction :=
  let grouped := SortedMap.collect (fun placed => placed.record.component)
    (manifest.orphans observed)
  grouped.entries.flatMap fun (component, instances) =>
    PlacedInstance.stopActions component instances

/-- The actions that bring the links of an application to what its manifest asks for. -/
def linkActions (manifest : Manifest) (observed : ObservedState) : List RequiredAction :=
  let missing := manifest.desiredLinks.values.filter fun link =>
    match observed.link? link.key with
    | some current => !current.sameWiring link
    | none => true
  let undeclared := (observed.linksOwnedBy manifest.name).filter fun link =>
    !manifest.desiredLinks.contains link.key
  missing.map .addLink ++ undeclared.map fun link => .removeLink link.key

end Manifest

/-- The actions that bring a lattice to what a manifest says. -/
def evaluate (manifest : Manifest) (observed : ObservedState) : List RequiredAction :=
  manifest.scalerActions observed ++ manifest.orphanActions observed ++
    manifest.linkActions observed

/-- The actions that remove everything that belongs to an application. -/
def evaluateTeardown (app : AppName) (observed : ObservedState) : List RequiredAction :=
  evaluate (.new app "") observed

end Reconciler
