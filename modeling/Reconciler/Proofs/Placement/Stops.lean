import Reconciler.Proofs.Manifest.Declared
import Reconciler.Proofs.Observed.Inventory

/-!
# What evaluation stops

Evaluation stops instances in two ways: what a scaler has no use for, and what belongs to no
declared component. `Manifest.stopped` lists these instances. The actions name exactly their places,
each as often as it is listed, and in a valid manifest no instance is listed twice.
-/

namespace Reconciler

/-- The places of the instances that an action stops. -/
def RequiredAction.stoppedPlaces : RequiredAction → List (HostId × InstanceId)
  | stopInstances _ host instances => instances.map fun id => (host, id)
  | _ => []

namespace PlacedInstance

theorem oldestFirst_perm (instances : List PlacedInstance) :
    (oldestFirst instances).Perm instances :=
  List.mergeSort_perm _ _

@[simp]
theorem mem_oldestFirst {instances : List PlacedInstance} {placed : PlacedInstance} :
    placed ∈ oldestFirst instances ↔ placed ∈ instances :=
  (oldestFirst_perm instances).mem_iff

@[simp]
theorem stopActions_nil (component : ComponentId) : stopActions component [] = [] := by
  rw [stopActions, oldestFirst, List.mergeSort_nil]
  rfl

/-- An action that stops instances of a component names those on one host, the oldest first. -/
theorem of_mem_stopActions {component : ComponentId} {instances : List PlacedInstance}
    {action : RequiredAction} (member : action ∈ stopActions component instances) :
    ∃ host, action = .stopInstances component host
      (((oldestFirst instances).filter fun placed => placed.host = host).map id) := by
  simp only [stopActions, List.mem_map, Prod.exists] at member
  rcases member with ⟨host, group, collected, rfl⟩
  exact ⟨host, by rw [(SortedMap.mem_entries_collect_iff.mp collected).2]⟩

theorem stopActions_places_perm (component : ComponentId) (instances : List PlacedInstance) :
    ((stopActions component instances).flatMap RequiredAction.stoppedPlaces).Perm
      (instances.map place) := by
  let groups := (SortedMap.collect PlacedInstance.host (oldestFirst instances)).entries
  have byHost : ((stopActions component instances).flatMap RequiredAction.stoppedPlaces) =
      (groups.flatMap Prod.snd).map place := by
    rw [stopActions, List.flatMap_map, List.map_flatMap]
    refine List.flatMap_congr fun entry member => ?_
    rcases entry with ⟨host, group⟩
    have inGroup := (SortedMap.mem_entries_collect_iff.mp member).2
    simp only [RequiredAction.stoppedPlaces, List.map_map]
    refine List.map_congr_left fun placed placedMember => ?_
    rw [inGroup, List.mem_filter] at placedMember
    have onHost : placed.host = host := by simpa using placedMember.2
    simp [place, onHost]
  rw [byHost]
  exact ((SortedMap.collect_perm _ _).trans (oldestFirst_perm instances)).map place

theorem exists_of_mem_stopActions {component named : ComponentId} {instances : List PlacedInstance}
    {host : HostId} {ids : List InstanceId} {id : InstanceId}
    (member : .stopInstances named host ids ∈ stopActions component instances)
    (isNamed : id ∈ ids) :
    named = component ∧ ∃ placed ∈ instances, placed.place = (host, id) := by
  rcases of_mem_stopActions member with ⟨groupHost, same⟩
  rw [RequiredAction.stopInstances.injEq] at same
  rcases same with ⟨rfl, rfl, rfl⟩
  rcases List.mem_map.mp isNamed with ⟨placed, inGroup, rfl⟩
  rcases List.mem_filter.mp inGroup with ⟨placedMember, onHost⟩
  refine ⟨rfl, placed, mem_oldestFirst.mp placedMember, ?_⟩
  have sameHost : placed.host = host := by simpa using onHost
  rw [place, sameHost]

end PlacedInstance

namespace Spread

theorem mem_pool_iff {app : AppName} {id : ComponentId} {observed : ObservedState}
    {placed : PlacedInstance} :
    placed ∈ pool app id observed ↔
      placed ∈ observed.managedInstances app ∧ placed.record.component = id := by
  simp [pool]

theorem nodup_pool_places (app : AppName) (id : ComponentId) (observed : ObservedState) :
    ((pool app id observed).map PlacedInstance.place).Nodup := by
  refine ((PlacedInstance.oldestFirst_perm _).map PlacedInstance.place).nodup_iff.mpr ?_
  exact (observed.nodup_managed_places app).sublist (List.filter_sublist.map _)

theorem nodup_pool (app : AppName) (id : ComponentId) (observed : ObservedState) :
    (pool app id observed).Nodup :=
  List.Nodup.of_map _ (nodup_pool_places app id observed)

/-- The instances of a component that a scaler has no use for. -/
def stopped (app : AppName) (id : ComponentId) (component : Component) (scaler : SpreadScaler)
    (observed : ObservedState) : List PlacedInstance :=
  surplus component (plan app id component scaler observed) (pool app id observed)

section

variable {app : AppName} {id : ComponentId} {component : Component} {scaler : SpreadScaler}
  {observed : ObservedState}

theorem mem_pool_of_mem_stopped {placed : PlacedInstance}
    (member : placed ∈ stopped app id component scaler observed) : placed ∈ pool app id observed :=
  List.mem_of_mem_filter member

theorem evaluate_places_perm :
    ((evaluate app id component scaler observed).flatMap RequiredAction.stoppedPlaces).Perm
      ((stopped app id component scaler observed).map PlacedInstance.place) := by
  have noStarts : ∀ plan, (startActions id component plan).flatMap
      RequiredAction.stoppedPlaces = [] := by
    intro plan
    rw [startActions, List.flatMap_map, List.flatMap_eq_nil_iff]
    exact fun _ _ => rfl
  rw [evaluate, List.flatMap_append, noStarts, List.nil_append]
  exact PlacedInstance.stopActions_places_perm _ _

end

end Spread

namespace Manifest

/-- The instances that evaluation stops: those without use for a scaler, and the orphans. -/
def stopped (manifest : Manifest) (observed : ObservedState) : List PlacedInstance :=
  (manifest.components.flatMap fun component =>
      component.scalers.flatMap fun scaler =>
        Spread.stopped manifest.name (manifest.componentId component) component scaler observed) ++
    manifest.orphans observed

variable {manifest : Manifest} {observed : ObservedState}

/-- An instance that is stopped is in the pool of a scaled component, or its component is gone. -/
theorem mem_stopped_iff {placed : PlacedInstance} :
    placed ∈ manifest.stopped observed ↔
      (∃ component ∈ manifest.components, ∃ scaler ∈ component.scalers,
        placed ∈ Spread.stopped manifest.name (manifest.componentId component) component scaler
          observed) ∨
      placed ∈ observed.managedInstances manifest.name ∧
        placed.record.component ∉ manifest.declaredIds := by
  simp [stopped, orphans]

theorem managed_of_mem_stopped {placed : PlacedInstance}
    (member : placed ∈ manifest.stopped observed) :
    placed ∈ observed.managedInstances manifest.name := by
  rcases mem_stopped_iff.mp member with ⟨component, _, scaler, _, inStopped⟩ | ⟨managed, _⟩
  · exact (Spread.mem_pool_iff.mp (Spread.mem_pool_of_mem_stopped inStopped)).1
  · exact managed

theorem orphanActions_places_perm :
    ((manifest.orphanActions observed).flatMap RequiredAction.stoppedPlaces).Perm
      ((manifest.orphans observed).map PlacedInstance.place) := by
  have byComponent := List.Perm.flatMap_left
    (SortedMap.collect (fun placed => placed.record.component) (manifest.orphans observed)).entries
    (fun entry _ => PlacedInstance.stopActions_places_perm entry.1 entry.2)
  rw [← List.map_flatMap] at byComponent
  rw [orphanActions, List.flatMap_assoc]
  exact byComponent.trans ((SortedMap.collect_perm _ _).map _)

/-- The actions of an evaluation name the places of what is stopped, and of nothing else. -/
theorem evaluate_places_perm (manifest : Manifest) (observed : ObservedState) :
    ((evaluate manifest observed).flatMap RequiredAction.stoppedPlaces).Perm
      ((manifest.stopped observed).map PlacedInstance.place) := by
  have noLinks : (manifest.linkActions observed).flatMap RequiredAction.stoppedPlaces = [] := by
    simp [linkActions, List.flatMap_map, RequiredAction.stoppedPlaces]
  have scaled : ((manifest.scalerActions observed).flatMap RequiredAction.stoppedPlaces).Perm
      ((manifest.components.flatMap fun component =>
        component.scalers.flatMap fun scaler =>
          Spread.stopped manifest.name (manifest.componentId component) component scaler
            observed).map PlacedInstance.place) := by
    simp only [scalerActions, List.flatMap_assoc, List.map_flatMap]
    refine List.Perm.flatMap_left _ fun component _ => ?_
    exact List.Perm.flatMap_left _ fun scaler _ => Spread.evaluate_places_perm
  rw [evaluate, List.flatMap_append, List.flatMap_append, noLinks, List.append_nil, stopped,
    List.map_append]
  exact scaled.append orphanActions_places_perm

/-- An action that stops instances of a component stops managed instances of that component. -/
theorem exists_stopped_of_mem_evaluate {component : ComponentId} {host : HostId}
    {ids : List InstanceId} {id : InstanceId}
    (member : .stopInstances component host ids ∈ evaluate manifest observed) (isNamed : id ∈ ids) :
    ∃ placed ∈ manifest.stopped observed, placed.place = (host, id) ∧
      placed.record.component = component := by
  rw [evaluate, List.mem_append, List.mem_append] at member
  rcases member with (scaled | orphaned) | linked
  · simp only [scalerActions, List.mem_flatMap] at scaled
    rcases scaled with ⟨owner, ownerMember, scaler, scalerMember, inEvaluate⟩
    rw [Spread.evaluate, List.mem_append] at inEvaluate
    rcases inEvaluate with started | stoppedMember
    · simp [Spread.startActions] at started
    · rcases PlacedInstance.exists_of_mem_stopActions stoppedMember isNamed with
        ⟨rfl, placed, inSurplus, place⟩
      refine ⟨placed, mem_stopped_iff.mpr (Or.inl ?_), place, ?_⟩
      · exact ⟨owner, ownerMember, scaler, scalerMember, inSurplus⟩
      · exact (Spread.mem_pool_iff.mp (Spread.mem_pool_of_mem_stopped inSurplus)).2
  · simp only [orphanActions, List.mem_flatMap, Prod.exists] at orphaned
    rcases orphaned with ⟨owner, group, collected, stoppedMember⟩
    rcases PlacedInstance.exists_of_mem_stopActions stoppedMember isNamed with
      ⟨rfl, placed, inGroup, place⟩
    rw [(SortedMap.mem_entries_collect_iff.mp collected).2, List.mem_filter] at inGroup
    refine ⟨placed, ?_, place, by simpa using inGroup.2⟩
    exact List.mem_append_right _ inGroup.1
  · simp [linkActions] at linked

theorem ne_componentId_of_mem_stopped (valid : manifest.isValid = true) {placed : PlacedInstance}
    (member : placed ∈ manifest.stopped observed) {component : Component}
    (componentMember : component ∈ manifest.components) (unscaled : component.scaler? = none) :
    placed.record.component ≠ manifest.componentId component := by
  intro same
  rcases mem_stopped_iff.mp member with ⟨owner, ownerMember, scaler, scalerMember, inStopped⟩ |
    ⟨_, undeclared⟩
  · have ofOwner : placed.record.component = manifest.componentId owner :=
      (Spread.mem_pool_iff.mp (Spread.mem_pool_of_mem_stopped inStopped)).2
    obtain rfl : component = owner :=
      eq_of_componentId_eq valid componentMember ownerMember (same.symm.trans ofOwner)
    rw [Component.scaler?, List.head?_eq_none_iff] at unscaled
    exact List.not_mem_nil (unscaled ▸ scalerMember)
  · exact undeclared (same ▸ List.mem_map_of_mem componentMember)

/-- In a valid manifest no instance is stopped twice. -/
theorem nodup_stopped (valid : manifest.isValid = true) (observed : ObservedState) :
    (manifest.stopped observed).Nodup := by
  have ofComponent : ∀ component ∈ manifest.components, ∀ placed,
      placed ∈ (component.scalers.flatMap fun scaler =>
        Spread.stopped manifest.name (manifest.componentId component) component scaler observed) →
      placed.record.component = manifest.componentId component := by
    intro component _ placed member
    rcases List.mem_flatMap.mp member with ⟨scaler, _, inStopped⟩
    exact (Spread.mem_pool_iff.mp (Spread.mem_pool_of_mem_stopped inStopped)).2
  refine List.Nodup.append (List.nodup_flatMap.mpr ⟨?_, ?_⟩) ?_ ?_
  · -- For one component, a scaler lists an instance of the pool at most once.
    intro component member
    have once : ∀ scaler, (Spread.stopped manifest.name (manifest.componentId component) component
        scaler observed).Nodup := fun scaler => (Spread.nodup_pool _ _ _).filter _
    rcases scalers_cases valid member with unscaled | ⟨scaler, scaled⟩
    · simp [unscaled]
    · simpa [scaled] using once scaler
  · refine (pairwise_componentId_ne valid).imp_of_mem ?_
    intro first second firstMember secondMember different placed ofFirst ofSecond
    exact different ((ofComponent first firstMember placed ofFirst).symm.trans
      (ofComponent second secondMember placed ofSecond))
  · exact (List.Nodup.of_map _ (observed.nodup_managed_places manifest.name)).filter _
  · -- What a scaler lists is of a declared component, and no orphan is.
    intro placed scaled orphaned
    rcases List.mem_flatMap.mp scaled with ⟨component, member, ofScaler⟩
    have declared : placed.record.component ∈ manifest.declaredIds :=
      ofComponent component member placed ofScaler ▸ List.mem_map_of_mem member
    simp [orphans, declared] at orphaned

end Manifest

end Reconciler
