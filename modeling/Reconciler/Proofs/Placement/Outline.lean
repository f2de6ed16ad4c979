import Reconciler.Proofs.Placement.Plan
import Reconciler.Proofs.Placement.Stops

/-!
# What evaluation looks at

Evaluation looks at the labels of hosts, at instances but not at how they are doing, and at links.
The outline of a state has these, and blanks for the rest. That evaluation cannot tell a state from
its outline is shown bottom up: lists of instances, plans and actions each follow the outlining of
instances, which keeps instances in different places apart.
-/

namespace Reconciler

/-- The record with a blank for how the instance is doing. -/
def InstanceRecord.outline (record : InstanceRecord) : InstanceRecord :=
  { record with status := .running }

/-- The host with its labels and the outlines of its instances. -/
def HostState.outline (host : HostState) : HostState where
  labels := host.labels
  bootEpoch := none
  instances := host.instances.mapValues fun _ record => record.outline
  highWater := 0
  lastSeen := ⟨0, 0⟩

/-- The state with the outlines of its hosts, its links, and no memory of stopped hosts. -/
def ObservedState.outline (state : ObservedState) : ObservedState :=
  { state with
    hosts := state.hosts.mapValues fun _ host => host.outline
    retired := ∅ }

namespace PlacedInstance

/-- The instance with the outline of its record. -/
def outline (placed : PlacedInstance) : PlacedInstance :=
  { placed with record := placed.record.outline }

theorem place_outline (placed : PlacedInstance) : placed.outline.place = placed.place :=
  rfl

/-- Where places are different, outlines are. -/
theorem contains_map_outline {instances group : List PlacedInstance}
    (nodup : (instances.map place).Nodup) (within : ∀ placed ∈ group, placed ∈ instances)
    {placed : PlacedInstance} (member : placed ∈ instances) :
    (group.map outline).contains placed.outline = group.contains placed := by
  rw [Bool.eq_iff_iff, List.contains_iff_mem, List.contains_iff_mem, List.mem_map]
  constructor
  · rintro ⟨other, otherMember, same⟩
    have samePlace : other.place = placed.place := by
      rw [← place_outline other, same, place_outline]
    have equal := List.inj_on_of_nodup_map nodup (within other otherMember) member samePlace
    exact equal ▸ otherMember
  · intro inGroup
    exact ⟨placed, inGroup, rfl⟩

theorem oldestFirst_map_outline (instances : List PlacedInstance) :
    oldestFirst (instances.map outline) = (oldestFirst instances).map outline := by
  symm
  apply List.map_mergeSort
  intro first _ second _
  rfl

theorem stopActions_map_outline (component : ComponentId) (instances : List PlacedInstance) :
    stopActions component (instances.map outline) = stopActions component instances := by
  rw [stopActions, oldestFirst_map_outline, SortedMap.collect_map, SortedMap.mapValues,
    List.map_map]
  apply List.map_congr_left
  rintro ⟨host, group⟩ _
  simp only [Function.comp_apply, List.map_map]
  rfl

end PlacedInstance

namespace ObservedState

variable (state : ObservedState)

theorem host?_outline (id : HostId) :
    state.outline.host? id = (state.host? id).map HostState.outline :=
  SortedMap.find?_mapValues _ _ _

theorem placedInstances_outline :
    state.outline.placedInstances = state.placedInstances.map PlacedInstance.outline := by
  simp only [placedInstances, outline, SortedMap.mapValues, HostState.outline, List.flatMap_map,
    List.map_flatMap, List.map_map]
  rfl

theorem managedInstances_outline (app : AppName) :
    state.outline.managedInstances app =
      (state.managedInstances app).map PlacedInstance.outline := by
  rw [managedInstances, placedInstances_outline, List.filter_map]
  rfl

end ObservedState

namespace Spread

variable (app : AppName) (id : ComponentId) (component : Component) (scaler : SpreadScaler)
  (observed : ObservedState)

theorem sitesOf_outline : sitesOf scaler observed.outline = sitesOf scaler observed := by
  apply sitesOf_congr
  intro host
  rw [ObservedState.host?_outline, Option.map_map]
  rfl

theorem pool_outline :
    pool app id observed.outline = (pool app id observed).map PlacedInstance.outline := by
  rw [pool, ObservedState.managedInstances_outline, List.filter_map,
    PlacedInstance.oldestFirst_map_outline]
  rfl

namespace Plan

/-- The plan with the outlines of its instances. -/
def outline (plan : Plan) : Plan :=
  { plan with
    unclaimed := plan.unclaimed.map PlacedInstance.outline
    claimed := plan.claimed.map PlacedInstance.outline }

theorem leastLoaded?_outline (plan : Plan) (hosts : List HostId) :
    plan.outline.leastLoaded? hosts = plan.leastLoaded? hosts := by
  induction hosts with
  | nil => rfl
  | cons host hosts ih =>
      rw [leastLoaded?, leastLoaded?, ih]
      rfl

theorem startMany_outline (site : Site) (missing : Nat) (plan : Plan) :
    startMany site missing plan.outline = (startMany site missing plan).outline := by
  induction missing generalizing plan with
  | zero => rfl
  | succ missing ih =>
      rw [startMany, startMany, leastLoaded?_outline]
      cases plan.leastLoaded? site.hosts with
      | none => rfl
      | some host => exact ih (plan.startOn site.target.requirements host)

theorem newest_outline (site : Site) (wanted : Nat) (plan : Plan) :
    site.newest wanted plan.outline.unclaimed =
      (site.newest wanted plan.unclaimed).map PlacedInstance.outline := by
  rw [Site.newest, outline, List.filter_map, List.length_map, ← List.map_drop]
  rfl

theorem foldl_addLoad_outline (hosts : List HostId) (plan : Plan) :
    hosts.foldl addLoad plan.outline = (hosts.foldl addLoad plan).outline := by
  induction hosts generalizing plan with
  | nil => rfl
  | cons host hosts ih => exact ih (plan.addLoad host)

/-- A site takes the same instances, as instances in different places have different outlines. -/
theorem claim_outline (site : Site) (wanted : Nat) {plan : Plan}
    (nodup : (plan.unclaimed.map PlacedInstance.place).Nodup) :
    plan.outline.claim site wanted = (plan.claim site wanted).outline := by
  have unclaimed : (plan.outline.claim site wanted).unclaimed =
      (plan.claim site wanted).unclaimed.map PlacedInstance.outline := by
    rw [claim_unclaimed, claim_unclaimed, newest_outline, outline, List.filter_map]
    apply congrArg
    apply List.filter_congr
    intro placed member
    -- The plan leaves unclaimed what the site has not taken, and tells instances by equality.
    have within : ∀ other ∈ site.newest wanted plan.unclaimed, other ∈ plan.unclaimed :=
      fun other taken => (Site.mem_of_mem_newest taken).1
    rw [Function.comp_apply, PlacedInstance.contains_map_outline nodup within member]
  have claimed : (plan.outline.claim site wanted).claimed =
      (plan.claim site wanted).claimed.map PlacedInstance.outline := by
    rw [claim_claimed, claim_claimed, newest_outline, List.map_append]
    rfl
  have load : (plan.outline.claim site wanted).load = (plan.claim site wanted).load := by
    rw [claim_load, claim_load, newest_outline, List.map_map, foldl_addLoad_outline]
    rfl
  have starts : (plan.outline.claim site wanted).starts = (plan.claim site wanted).starts := by
    rw [claim_starts, claim_starts]
    rfl
  let claiming := plan.claim site wanted
  calc
    plan.outline.claim site wanted
      = ⟨(plan.outline.claim site wanted).unclaimed, (plan.outline.claim site wanted).claimed,
          (plan.outline.claim site wanted).load, (plan.outline.claim site wanted).starts⟩ := rfl
    _ = ⟨claiming.unclaimed.map PlacedInstance.outline,
          claiming.claimed.map PlacedInstance.outline, claiming.load, claiming.starts⟩ := by
        rw [unclaimed, claimed, load, starts]
    _ = claiming.outline := rfl

theorem serve_outline (site : Site) (wanted : Nat) {plan : Plan}
    (nodup : (plan.unclaimed.map PlacedInstance.place).Nodup) :
    plan.outline.serve site wanted = (plan.serve site wanted).outline := by
  rw [serve_eq, serve_eq, claim_outline site wanted nodup, startMany_outline, newest_outline,
    List.length_map]

theorem serveAll_outline (shares : List (Site × Nat)) {plan : Plan}
    (nodup : (plan.unclaimed.map PlacedInstance.place).Nodup) :
    plan.outline.serveAll shares = (plan.serveAll shares).outline := by
  induction shares generalizing plan with
  | nil => rfl
  | cons share rest ih =>
      rcases share with ⟨site, wanted⟩
      rw [serveAll_cons, serveAll_cons, serve_outline site wanted nodup]
      apply ih
      rw [serve_unclaimed]
      exact nodup.sublist (List.filter_sublist.map _)

end Plan

theorem plan_outline :
    plan app id component scaler observed.outline =
      (plan app id component scaler observed).outline := by
  have sameInitial : Plan.initial ((pool app id observed.outline).filter (isCurrent component)) =
      (Plan.initial ((pool app id observed).filter (isCurrent component))).outline := by
    rw [pool_outline, List.filter_map]
    rfl
  have nodup := (nodup_pool_places app id observed).sublist
    ((List.filter_sublist (p := isCurrent component)).map _)
  rw [plan, sitesOf_outline, sameInitial]
  exact Plan.serveAll_outline _ nodup

theorem surplus_outline :
    surplus component (plan app id component scaler observed.outline)
        (pool app id observed.outline) =
      (surplus component (plan app id component scaler observed) (pool app id observed)).map
        PlacedInstance.outline := by
  rw [plan_outline, pool_outline, surplus, surplus, List.filter_map]
  apply congrArg
  apply List.filter_congr
  intro placed member
  have within : ∀ other ∈ (plan app id component scaler observed).unclaimed,
      other ∈ pool app id observed := by
    intro other unclaimed
    apply List.mem_of_mem_filter
    exact (Plan.unclaimed_serveAll_sublist _ _).subset unclaimed
  rw [Function.comp_apply, Plan.outline,
    PlacedInstance.contains_map_outline (nodup_pool_places app id observed) within member]
  rfl

theorem evaluate_outline :
    evaluate app id component scaler observed.outline =
      evaluate app id component scaler observed := by
  rw [evaluate, surplus_outline, PlacedInstance.stopActions_map_outline, plan_outline]
  rfl

end Spread

namespace Manifest

variable (manifest : Manifest) (observed : ObservedState)

theorem orphanActions_outline :
    manifest.orphanActions observed.outline = manifest.orphanActions observed := by
  have sameOrphans : manifest.orphans observed.outline =
      (manifest.orphans observed).map PlacedInstance.outline := by
    rw [orphans, ObservedState.managedInstances_outline, List.filter_map]
    rfl
  rw [orphanActions, sameOrphans, SortedMap.collect_map, SortedMap.mapValues]
  rw [List.flatMap_map]
  apply List.flatMap_congr
  rintro ⟨component, group⟩ _
  exact PlacedInstance.stopActions_map_outline component group

/-- Evaluation looks at the outline of a state. -/
theorem evaluate_outline : evaluate manifest observed.outline = evaluate manifest observed := by
  have sameScaled : manifest.scalerActions observed.outline = manifest.scalerActions observed := by
    apply List.flatMap_congr
    intro component _
    apply List.flatMap_congr
    intro scaler _
    exact Spread.evaluate_outline _ _ _ _ _
  rw [evaluate, sameScaled, orphanActions_outline]
  rfl

end Manifest

end Reconciler
