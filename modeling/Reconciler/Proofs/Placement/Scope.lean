import Reconciler.Proofs.Placement.Stops

/-!
# The scope of evaluation

Evaluation touches only what its application manages. It stops running instances that were started
for the application, each at most once and none of a component that nobody scales; it removes links
that belong to the application and that the manifest does not declare, and adds declared ones.
-/

namespace Reconciler.Manifest

variable {manifest : Manifest} {observed : ObservedState}

/-- Actions for scalers and orphans happen on hosts. -/
theorem mem_evaluate_iff_of_no_host {action : RequiredAction} (noHost : action.host? = none) :
    action ∈ evaluate manifest observed ↔ action ∈ manifest.linkActions observed := by
  have noStop : ∀ component instances,
      action ∉ PlacedInstance.stopActions component instances := by
    intro component instances member
    rcases PlacedInstance.of_mem_stopActions member with ⟨host, rfl⟩
    cases noHost
  have noStart : ∀ id component plan, action ∉ Spread.startActions id component plan := by
    intro id component plan member
    rcases List.mem_map.mp member with ⟨entry, _, rfl⟩
    cases noHost
  have notScaled : action ∉ manifest.scalerActions observed := by
    simp [scalerActions, Spread.evaluate, noStart, noStop]
  have notOrphaned : action ∉ manifest.orphanActions observed := by
    simp [orphanActions, noStop]
  rw [evaluate, List.mem_append, List.mem_append]
  simp only [notScaled, notOrphaned, false_or]

theorem addLink_mem_evaluate_iff {link : ActiveLink} :
    .addLink link ∈ evaluate manifest observed ↔
      manifest.desiredLinks.find? link.key = some link ∧
        ∀ current, observed.link? link.key = some current → current.sameWiring link = false := by
  rw [mem_evaluate_iff_of_no_host rfl, ← mem_desiredLinks_values_iff]
  simp only [linkActions, List.mem_append, List.mem_map, RequiredAction.addLink.injEq,
    exists_eq_right, reduceCtorEq, and_false, exists_false, or_false, List.mem_filter]
  refine and_congr_right fun _ => ?_
  cases observed.link? link.key <;> simp

theorem removeLink_mem_evaluate_iff (reachable : observed.Reachable) {key : LinkKey} :
    .removeLink key ∈ evaluate manifest observed ↔
      (∃ link, observed.link? key = some link ∧ link.owner = some manifest.name) ∧
        manifest.desiredLinks.contains key = false := by
  rw [mem_evaluate_iff_of_no_host rfl]
  simp only [linkActions, List.mem_append, List.mem_map, reduceCtorEq, and_false, exists_false,
    false_or, List.mem_filter, RequiredAction.removeLink.injEq, reachable.mem_linksOwnedBy_iff,
    Bool.not_eq_true']
  constructor
  · rintro ⟨link, ⟨⟨found, owned⟩, undeclared⟩, rfl⟩
    exact ⟨⟨link, found, owned⟩, undeclared⟩
  · rintro ⟨⟨link, found, owned⟩, undeclared⟩
    obtain rfl := reachable.key_link found
    exact ⟨link, ⟨⟨found, owned⟩, undeclared⟩, rfl⟩

/--
Evaluation for a valid manifest stops running instances only of the application, each under its
component and at most once, and none of a declared component without a scaler. It removes links only
of the application, which the manifest does not declare and which it does not add, and adds links
only for the application, from its components.
-/
theorem evaluate_touches_own (valid : manifest.isValid = true) (reachable : observed.Reachable) :
    (∀ component host ids, .stopInstances component host ids ∈ evaluate manifest observed →
      ∀ id ∈ ids,
        (∃ record, observed.instance? host id = some record ∧ record.component = component ∧
          record.annotations.find? Labels.managedBy = some manifest.name.text) ∧
        ∀ declared ∈ manifest.components, declared.scaler? = none →
          component ≠ manifest.componentId declared) ∧
    ((evaluate manifest observed).flatMap RequiredAction.stoppedPlaces).Nodup ∧
    (∀ key, .removeLink key ∈ evaluate manifest observed →
      (∃ link, observed.link? key = some link ∧ link.owner = some manifest.name) ∧
      (∀ link ∈ manifest.linkList, link.key ≠ key) ∧
      ∀ link, .addLink link ∈ evaluate manifest observed → link.key ≠ key) ∧
    ∀ link, .addLink link ∈ evaluate manifest observed →
      link.owner = some manifest.name ∧
        ∃ component ∈ manifest.components, link.key.source = manifest.componentId component := by
  refine ⟨?_, ?_, ?_, ?_⟩
  · intro component host ids member id isNamed
    rcases exists_stopped_of_mem_evaluate member isNamed with ⟨placed, isStopped, place, rfl⟩
    obtain ⟨rfl, rfl⟩ : placed.host = host ∧ placed.id = id := Prod.mk.inj place
    rcases ObservedState.mem_managedInstances_iff.mp (managed_of_mem_stopped isStopped) with
      ⟨found, managed⟩
    refine ⟨⟨placed.record, found, rfl, ?_⟩, ?_⟩
    · simpa [InstanceRecord.isManagedBy, InstanceRecord.managedBy] using managed
    · exact fun declared => ne_componentId_of_mem_stopped valid isStopped
  · refine (evaluate_places_perm manifest observed).nodup_iff.mpr ?_
    refine List.Nodup.map_on ?_ (nodup_stopped valid observed)
    exact fun first firstMember second secondMember => ObservedState.eq_of_place_eq
      (managed_of_mem_stopped firstMember) (managed_of_mem_stopped secondMember)
  · intro key member
    rcases (removeLink_mem_evaluate_iff reachable).mp member with ⟨owned, undeclared⟩
    have notDeclared := contains_desiredLinks_eq_false_iff.mp undeclared
    refine ⟨owned, notDeclared, fun link added => ?_⟩
    exact notDeclared link (of_find?_desiredLinks (addLink_mem_evaluate_iff.mp added).1).2
  · intro link member
    exact owner_of_mem_linkList (of_find?_desiredLinks (addLink_mem_evaluate_iff.mp member).1).2

/-- An old instance, an orphan and an old link give way; what others own on the host does not. -/
theorem evaluate_touches_own_of_update :
    let link : LinkDefinition := .new "wasi" "keyvalue" (.external "store")
    let manifest : Manifest := (Manifest.new ⟨"shop"⟩ "v2").withComponent
      (((Component.new "api" .component "registry/api:2").withTrait
        (.spreadScaler (.new 0))).withTrait (.link link))
    let event (sequence : UInt64) (kind : LatticeEventKind) : LatticeEvent :=
      ⟨⟨"prod"⟩, ⟨"host-a"⟩, sequence, ⟨0, 0⟩, kind⟩
    let started (sequence : UInt64) (component id app : String) : LatticeEvent :=
      event sequence (.instanceStarted ⟨component⟩ .component "registry/api:1" ⟨id⟩ (.forApp ⟨app⟩))
    let observed : ObservedState := .replay ⟨"prod"⟩
      [event 1 (.hostStarted ∅ none), started 2 "shop-api" "i-1" "shop",
        started 3 "shop-legacy" "i-2" "shop", started 4 "shop-api" "i-3" "bank",
        event 5
          (.linkSet ⟨⟨⟨"shop-api"⟩, "default", "wasi", "http"⟩, "edge", [], ∅, some ⟨"shop"⟩⟩)]
    (manifest.isValid = true ∧ observed.Reachable) ∧
      (evaluate manifest observed).flatMap RequiredAction.stoppedPlaces =
        [(⟨"host-a"⟩, ⟨"i-1"⟩), (⟨"host-a"⟩, ⟨"i-2"⟩)] ∧
      ((evaluate manifest observed).flatMap RequiredAction.stoppedPlaces).Nodup := by
  intro link manifest event started observed
  have valid : manifest.isValid = true := by decide +kernel
  have reachable : observed.Reachable := (ObservedState.Reachable.empty ⟨"prod"⟩).afterAll _
  refine ⟨⟨valid, reachable⟩, ?_, (evaluate_touches_own valid reachable).2.1⟩
  decide +kernel

end Reconciler.Manifest
