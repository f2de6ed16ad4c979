import Mathlib.Data.List.Nodup
import Reconciler.Proofs.Observed.Forgetting

/-!
# What runs where

An instance is told by its place: its host, and its name there. The lists of instances that
placement reads have every place at most once, and membership in them is a matter of looking up
places. In the states that events and forgetting lead to, a link stands under its own key.
-/

namespace Reconciler

/-- Where an instance runs, and under which name. -/
def PlacedInstance.place (placed : PlacedInstance) : HostId × InstanceId :=
  (placed.host, placed.id)

namespace ObservedState

/-- The record of the instance with a name on a host. -/
def instance? (state : ObservedState) (host : HostId) (id : InstanceId) : Option InstanceRecord :=
  (state.host? host).bind fun hostState => hostState.instances.find? id

theorem mem_placedInstances_iff {state : ObservedState} {placed : PlacedInstance} :
    placed ∈ state.placedInstances ↔
      state.instance? placed.host placed.id = some placed.record := by
  rcases placed with ⟨host, id, record⟩
  simp [placedInstances, instance?, host?, SortedMap.mem_entries_iff, Option.bind_eq_some_iff]

theorem mem_managedInstances_iff {state : ObservedState} {app : AppName} {placed : PlacedInstance} :
    placed ∈ state.managedInstances app ↔
      state.instance? placed.host placed.id = some placed.record ∧
        placed.record.isManagedBy app = true := by
  rw [managedInstances, List.mem_filter, mem_placedInstances_iff]

/-- No two instances are in one place. -/
theorem nodup_places (state : ObservedState) :
    (state.placedInstances.map PlacedInstance.place).Nodup := by
  rw [placedInstances, List.map_flatMap, List.nodup_flatMap]
  constructor
  · rintro ⟨host, hostState⟩ _
    rw [List.map_map]
    refine List.Nodup.of_map Prod.snd ?_
    rw [List.map_map]
    exact hostState.instances.nodup_keys
  · -- Instances of different hosts are in different places.
    refine (List.pairwise_map.mp state.hosts.nodup_keys).imp ?_
    intro first second different place ofFirst ofSecond
    simp only [List.mem_map] at ofFirst ofSecond
    rcases ofFirst with ⟨_, ⟨_, _, rfl⟩, rfl⟩
    rcases ofSecond with ⟨_, ⟨_, _, rfl⟩, same⟩
    exact different (congrArg Prod.fst same).symm

theorem nodup_managed_places (state : ObservedState) (app : AppName) :
    ((state.managedInstances app).map PlacedInstance.place).Nodup :=
  state.nodup_places.sublist (List.filter_sublist.map _)

/-- Two instances of an application in one place are one instance. -/
theorem eq_of_place_eq {state : ObservedState} {app : AppName} {first second : PlacedInstance}
    (firstManaged : first ∈ state.managedInstances app)
    (secondManaged : second ∈ state.managedInstances app) (same : first.place = second.place) :
    first = second :=
  List.inj_on_of_nodup_map (state.nodup_managed_places app) firstManaged secondManaged same

/-- The states that events and forgetting lead to. -/
inductive Reachable : ObservedState → Prop
  | empty (lattice : LatticeId) : Reachable (.empty lattice)
  | after {state : ObservedState} (before : Reachable state) (event : LatticeEvent) :
      Reachable (state.after event)
  | prune {state : ObservedState} (before : Reachable state) (time : Timestamp) :
      Reachable (state.pruneRetired time)

theorem Reachable.afterAll {state : ObservedState} (reachable : state.Reachable)
    (events : List LatticeEvent) : (state.afterAll events).Reachable := by
  induction events generalizing state with
  | nil => exact reachable
  | cons event rest ih => exact ih (reachable.after event)

/-- What events of a host and forgetting keep of its standing is so in every state. -/
theorem Reachable.standing_induction {motive : Standing → Prop} (unknown : motive ⟨none, none⟩)
    (after : ∀ standing event, motive standing → motive (standing.after event))
    (prune : ∀ standing time, motive standing → motive (standing.prune time))
    {state : ObservedState} (reachable : state.Reachable) (id : HostId) :
    motive (state.standing id) := by
  induction reachable with
  | empty lattice => exact unknown
  | after before event ih =>
      rw [standing_after]
      split
      · exact after _ event ih
      · exact ih
  | prune before time ih =>
      rw [standing_pruneRetired]
      exact prune _ time ih

/-- A link stands under its own key. -/
theorem Reachable.key_link {state : ObservedState} (reachable : state.Reachable) {key : LinkKey}
    {link : ActiveLink} (found : state.link? key = some link) : link.key = key := by
  induction reachable with
  | empty lattice => cases found
  | prune before time ih => exact ih found
  | @after state before event ih =>
      rw [link?_after] at found
      cases kind : event.kind with
      | linkSet put =>
          simp only [LatticeEvent.linkWrite?, kind] at found
          split at found
          · rename_i written
            exact Option.some.inj found ▸ written.2.symm
          · exact ih found
      | linkDeleted deleted =>
          simp only [LatticeEvent.linkWrite?, kind] at found
          split at found
          · cases found
          · exact ih found
      | _ =>
          simp only [LatticeEvent.linkWrite?, kind] at found
          exact ih found

theorem Reachable.mem_linksOwnedBy_iff {state : ObservedState} (reachable : state.Reachable)
    {app : AppName} {link : ActiveLink} :
    link ∈ state.linksOwnedBy app ↔ state.link? link.key = some link ∧ link.owner = some app := by
  rw [linksOwnedBy, List.mem_filter, SortedMap.mem_values_iff, beq_iff_eq]
  refine and_congr_left fun _ => ⟨?_, fun found => ⟨link.key, found⟩⟩
  rintro ⟨key, found⟩
  have sameKey : link.key = key := reachable.key_link found
  exact sameKey ▸ found

end ObservedState

end Reconciler
