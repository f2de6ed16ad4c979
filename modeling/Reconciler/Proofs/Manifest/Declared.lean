import Mathlib.Data.List.Nodup
import Reconciler.Placement.Evaluation
import Reconciler.Proofs.Manifest.WellFormed
import Reconciler.Proofs.SortedMap

/-!
# What a manifest declares

In a valid manifest no two components have one identity and no component has two scalers, so that an
identity leads to one component and at most one scaler. Nor do two links have one key, so that all
of them are asked for. Whatever a manifest declares, the links that it asks for lead from its own
components and belong to its application.
-/

namespace Reconciler

theorem ComponentId.scoped_injective {app : AppName} {first second : String}
    (same : ComponentId.scoped app first = ComponentId.scoped app second) : first = second := by
  simpa [ComponentId.scoped] using same

namespace Manifest

variable {manifest : Manifest}

theorem isWellFormed_of_isValid (valid : manifest.isValid = true) : manifest.IsWellFormed :=
  problem?_eq_none_iff.mp (Option.isNone_iff_eq_none.mp valid)

theorem nodup_componentNames (valid : manifest.isValid = true) : manifest.componentNames.Nodup :=
  (isWellFormed_of_isValid valid).distinct

/-- The components of a valid manifest are told apart by their identities. -/
theorem eq_of_componentId_eq (valid : manifest.isValid = true) {first second : Component}
    (firstMember : first ∈ manifest.components) (secondMember : second ∈ manifest.components)
    (same : manifest.componentId first = manifest.componentId second) : first = second :=
  List.inj_on_of_nodup_map (nodup_componentNames valid) firstMember secondMember
    (ComponentId.scoped_injective same)

theorem pairwise_componentId_ne (valid : manifest.isValid = true) :
    manifest.components.Pairwise fun first second =>
      manifest.componentId first ≠ manifest.componentId second :=
  (List.pairwise_map.mp (nodup_componentNames valid)).imp fun different same =>
    different (ComponentId.scoped_injective same)

/-- A component of a valid manifest has one scaler, or nobody manages its instances. -/
theorem scalers_cases (valid : manifest.isValid = true) {component : Component}
    (member : component ∈ manifest.components) :
    component.scalers = [] ∨ ∃ scaler, component.scalers = [scaler] := by
  have few := (isWellFormed_of_isValid valid).scaled component member
  cases scalers : component.scalers with
  | nil => exact Or.inl rfl
  | cons scaler rest =>
      cases rest with
      | nil => exact Or.inr ⟨scaler, rfl⟩
      | cons second rest => simp [scalers] at few

/-- A link that a manifest asks for belongs to its application and leads from its component. -/
theorem owner_of_mem_linkList {link : ActiveLink} (member : link ∈ manifest.linkList) :
    link.owner = some manifest.name ∧
      ∃ component ∈ manifest.components, link.key.source = manifest.componentId component := by
  simp only [linkList, List.mem_flatMap, List.mem_map] at member
  rcases member with ⟨component, componentMember, definition, _, rfl⟩
  exact ⟨rfl, component, componentMember, rfl⟩

/-- A link is asked for under its own key, and declared. -/
theorem of_find?_desiredLinks {key : LinkKey} {link : ActiveLink}
    (found : manifest.desiredLinks.find? key = some link) :
    link.key = key ∧ link ∈ manifest.linkList := by
  have member := SortedMap.mem_of_find?_ofList found
  simp only [List.mem_map, Prod.mk.injEq] at member
  rcases member with ⟨declared, isDeclared, rfl, rfl⟩
  exact ⟨rfl, isDeclared⟩

theorem mem_desiredLinks_values_iff {link : ActiveLink} :
    link ∈ manifest.desiredLinks.values ↔
      manifest.desiredLinks.find? link.key = some link := by
  rw [SortedMap.mem_values_iff]
  refine ⟨?_, fun found => ⟨link.key, found⟩⟩
  rintro ⟨key, found⟩
  exact (of_find?_desiredLinks found).1 ▸ found

/-- A key is not among those of the links asked for exactly if no declared link has it. -/
theorem contains_desiredLinks_eq_false_iff {key : LinkKey} :
    manifest.desiredLinks.contains key = false ↔ ∀ link ∈ manifest.linkList, link.key ≠ key := by
  constructor
  · rintro absent link member rfl
    have present := SortedMap.contains_ofList
      (List.mem_map_of_mem (f := fun link : ActiveLink => (link.key, link)) member)
    exact Bool.false_ne_true (absent.symm.trans present)
  · intro undeclared
    cases found : manifest.desiredLinks.find? key with
    | none => simp [SortedMap.contains_eq_isSome, found]
    | some link =>
        rcases of_find?_desiredLinks found with ⟨same, member⟩
        exact absurd same (undeclared link member)

theorem contains_desiredLinks_iff {key : LinkKey} :
    manifest.desiredLinks.contains key = true ↔
      ∃ declared ∈ manifest.linkList, declared.key = key := by
  rw [← not_iff_not, Bool.not_eq_true, contains_desiredLinks_eq_false_iff]
  simp

/-- The links of a valid manifest are told apart by their keys. -/
theorem IsWellFormed.nodup_linkKeys (wellFormed : manifest.IsWellFormed) :
    (manifest.linkList.map ActiveLink.key).Nodup := by
  rw [linkList, List.map_flatMap, List.nodup_flatMap]
  constructor
  · intro component member
    have apart := wellFormed.apart component member
    rw [List.map_map]
    refine List.Nodup.of_map (fun key : LinkKey => (key.name, key.nameSpace, key.package)) ?_
    rwa [List.map_map]
  · refine (List.pairwise_map.mp wellFormed.distinct).imp fun different key first second => ?_
    simp only [List.map_map, List.mem_map] at first second
    rcases first with ⟨_, _, rfl⟩
    rcases second with ⟨_, _, same⟩
    exact different (ComponentId.scoped_injective (congrArg LinkKey.source same).symm)

/--
Validation accepts exactly the well-formed manifests. A manifest that it accepts asks for as many
links as are declared, each under its own key, where no other takes its place.
-/
theorem accepts_wellFormed (manifest : Manifest) :
    (manifest.problem? = none ↔ manifest.IsWellFormed) ∧
    (manifest.problem? = none →
      (manifest.desiredLinks.entries.Perm
        (manifest.components.flatMap fun component => component.links.map fun link =>
          let wanted := link.resolve manifest.name (manifest.componentId component)
          (wanted.key, wanted))) ∧
      ∀ component ∈ manifest.components, ∀ link, Trait.link link ∈ component.traits →
        let wanted := link.resolve manifest.name (manifest.componentId component)
        manifest.desiredLinks.find? wanted.key = some wanted) := by
  refine ⟨problem?_eq_none_iff, fun accepted => ?_⟩
  have distinct := (problem?_eq_none_iff.mp accepted).nodup_linkKeys
  have entries : manifest.desiredLinks.entries.Perm
      (manifest.linkList.map fun link => (link.key, link)) := by
    refine SortedMap.entries_ofList_perm ?_
    rwa [List.map_map]
  refine ⟨?_, fun component isComponent link isTrait => ?_⟩
  · rw [linkList, List.map_flatMap] at entries
    simpa only [List.map_map, Function.comp_def] using entries
  · have isLink : link ∈ component.links := List.mem_filterMap.mpr ⟨_, isTrait, rfl⟩
    refine SortedMap.mem_entries_iff.mp (entries.mem_iff.mpr (List.mem_map.mpr ⟨_, ?_, rfl⟩))
    exact List.mem_flatMap.mpr ⟨component, isComponent, List.mem_map_of_mem isLink⟩

/-- A component links to another one that is declared after it, and to a thing outside. -/
theorem accepts_wellFormed_of_forward_link :
    let inward : LinkDefinition := .new "wasi" "keyvalue" (.component "store")
    let outward : LinkDefinition := .new "wasi" "http" (.external "gateway")
    let api := ((Component.new "api" .component "registry/api:1").withTrait
      (.link inward)).withTrait (.link outward)
    let manifest := ((Manifest.new ⟨"shop"⟩ "v1").withComponent api).withComponent
      (.new "store" .provider "registry/store:1")
    manifest.problem? = none ∧ manifest.IsWellFormed ∧
      manifest.desiredLinks.entries.map (fun entry => entry.2.target) = ["gateway", "shop-store"] ∧
      manifest.desiredLinks.find? ⟨⟨"shop-api"⟩, "default", "wasi", "keyvalue"⟩ =
        some (inward.resolve ⟨"shop"⟩ ⟨"shop-api"⟩) := by
  intro inward outward api manifest
  have accepted : manifest.problem? = none := by decide +kernel
  have exactly := accepts_wellFormed manifest
  exact ⟨accepted, exactly.1.mp accepted, by decide +kernel,
    (exactly.2 accepted).2 api List.mem_cons_self inward List.mem_cons_self⟩

end Manifest

end Reconciler
