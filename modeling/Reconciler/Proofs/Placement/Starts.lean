import Mathlib.Algebra.Order.BigOperators.Group.List
import Mathlib.Algebra.Order.Group.Nat
import Reconciler.Proofs.Placement.Plan
import Reconciler.Proofs.Placement.Stops

/-!
# What evaluation starts

Evaluation starts instances for scalers only. For a component of a valid manifest the actions start
on each host as many instances as the plan for its scaler says, if the sites of the scaler have no
host in common; the counts are then small enough to be said in an action.
-/

namespace Reconciler

/-- The number of instances of a component that an action starts on a host. -/
def RequiredAction.startsOf (id : ComponentId) (host : HostId) : RequiredAction → Nat
  | startInstances component _ _ other _ count =>
    if component = id ∧ other = host then count.toNat else 0
  | _ => 0

theorem RequiredAction.sum_startsOf_eq_zero {id : ComponentId} {host : HostId}
    {actions : List RequiredAction} (none : ∀ action ∈ actions, action.startsOf id host = 0) :
    (actions.map (startsOf id host)).sum = 0 := by
  apply List.sum_eq_zero
  intro count counted
  rcases List.mem_map.mp counted with ⟨action, member, rfl⟩
  exact none action member

theorem PlacedInstance.startsOf_of_mem_stopActions {component id : ComponentId} {host : HostId}
    {instances : List PlacedInstance} {action : RequiredAction}
    (member : action ∈ stopActions component instances) : action.startsOf id host = 0 := by
  rcases of_mem_stopActions member with ⟨_, rfl⟩
  rfl

namespace Spread

/-- The instances of a component that run the image that it should have, the oldest first. -/
def current (app : AppName) (id : ComponentId) (component : Component) (observed : ObservedState) :
    List PlacedInstance :=
  (pool app id observed).filter (isCurrent component)

variable {app : AppName} {id : ComponentId} {component : Component} {scaler : SpreadScaler}
  {observed : ObservedState}

theorem plan_eq :
    plan app id component scaler observed =
      (Plan.initial (current app id component observed)).serveAll
        (allocate scaler.instances (sitesOf scaler observed)) :=
  rfl

/-- Unclaimed are the current instances that no site takes. -/
theorem mem_unclaimed_plan_iff (apart : SitesApart scaler observed) {placed : PlacedInstance} :
    placed ∈ (plan app id component scaler observed).unclaimed ↔
      placed ∈ current app id component observed ∧
        ∀ share ∈ allocate scaler.instances (sitesOf scaler observed),
          placed ∉ share.1.newest share.2 (current app id component observed) :=
  Plan.mem_serveAll_unclaimed_iff (apart_allocate apart)

theorem startsAt_plan (apart : SitesApart scaler observed) {share : Site × Nat}
    (member : share ∈ allocate scaler.instances (sitesOf scaler observed))
    (nonempty : share.1.hosts ≠ []) :
    (plan app id component scaler observed).startsAt share.1.hosts =
      share.2 - (share.1.newest share.2 (current app id component observed)).length := by
  have nothing : ∀ hosts,
      (Plan.initial (current app id component observed)).startsAt hosts = 0 :=
    fun hosts => List.sum_eq_zero fun count counted => by
      rcases List.mem_map.mp counted with ⟨host, _, rfl⟩
      rfl
  rw [plan_eq, Plan.startsAt_serveAll (apart_allocate apart) _ member nonempty, nothing,
    Nat.zero_add]
  · rfl
  · exact fun other otherMember => nodup_hosts_of_mem_sitesOf (site_mem_of_mem_allocate otherMember)

theorem startsOn_plan_eq_zero {host : HostId}
    (elsewhere : ∀ site ∈ sitesOf scaler observed, host ∉ site.hosts) :
    (plan app id component scaler observed).startsOn host = 0 := by
  rw [plan_eq, Plan.startsOn_serveAll_of_notMem]
  · rfl
  · exact fun share member => elsewhere share.1 (site_mem_of_mem_allocate member)

/-- What is started on a host is few enough to be said in an action. -/
theorem startsOn_plan_lt (apart : SitesApart scaler observed) (host : HostId) :
    (plan app id component scaler observed).startsOn host < UInt32.size := by
  by_cases somewhere : ∃ site ∈ sitesOf scaler observed, host ∈ site.hosts
  · rcases somewhere with ⟨site, member, onSite⟩
    obtain ⟨share, shareMember, rfl⟩ : ∃ share ∈ allocate scaler.instances _, share.1 = site :=
      exists_mem_allocate member
    have total : (plan app id component scaler observed).startsAt share.1.hosts = _ :=
      startsAt_plan apart shareMember (List.ne_nil_of_mem onSite)
    have part : (plan app id component scaler observed).startsOn host ≤
        (plan app id component scaler observed).startsAt share.1.hosts :=
      List.le_sum_of_mem (List.mem_map_of_mem onSite)
    have bound := (allocate_snd shareMember).2
    omega
  · rw [startsOn_plan_eq_zero fun site member onSite => somewhere ⟨site, member, onSite⟩]
    exact Nat.two_pow_pos 32

/-- The actions for a scaler start on each host what its plan says, of its component. -/
theorem sum_startsOf_evaluate (apart : SitesApart scaler observed) (host : HostId) :
    ((evaluate app id component scaler observed).map (RequiredAction.startsOf id host)).sum =
      (plan app id component scaler observed).startsOn host := by
  have noStops : ∀ instances, ((PlacedInstance.stopActions id instances).map
      (RequiredAction.startsOf id host)).sum = 0 := by
    intro instances
    apply RequiredAction.sum_startsOf_eq_zero
    exact fun action member => PlacedInstance.startsOf_of_mem_stopActions member
  have byHost : (startActions id component (plan app id component scaler observed)).map
        (RequiredAction.startsOf id host) =
      (plan app id component scaler observed).starts.entries.map fun entry =>
        if entry.1 = host then entry.2.count.toUInt32.toNat else 0 := by
    simp [startActions, RequiredAction.startsOf]
  have small : (plan app id component scaler observed).startsOn host < UInt32.size :=
    startsOn_plan_lt apart host
  rw [evaluate, List.map_append, List.sum_append, noStops, Nat.add_zero, byHost,
    SortedMap.sum_entries_ite _ host fun start : Start => start.count.toUInt32.toNat]
  rw [Plan.startsOn] at small ⊢
  cases started : (plan app id component scaler observed).starts.find? host with
  | none => rfl
  | some start =>
      rw [started] at small
      exact Nat.mod_eq_of_lt small

theorem startsOf_of_mem_evaluate {other : ComponentId} (different : id ≠ other) {host : HostId}
    {action : RequiredAction} (member : action ∈ evaluate app id component scaler observed) :
    action.startsOf other host = 0 := by
  rcases List.mem_append.mp member with started | stopped
  · rcases List.mem_map.mp started with ⟨entry, _, rfl⟩
    exact if_neg fun same => different same.1
  · exact PlacedInstance.startsOf_of_mem_stopActions stopped

end Spread

namespace Manifest

variable {manifest : Manifest} {observed : ObservedState}

/-- What is started is of a scaled component of the manifest, and of the image that it declares. -/
theorem exists_component_of_mem_evaluate {id : ComponentId} {kind : ComponentKind}
    {imageRef : String} {host : HostId} {selector : Labels} {count : UInt32}
    (member : .startInstances id kind imageRef host selector count ∈ evaluate manifest observed) :
    ∃ component ∈ manifest.components, ∃ scaler ∈ component.scalers,
      id = manifest.componentId component ∧ imageRef = component.imageRef := by
  rw [evaluate, List.mem_append, List.mem_append] at member
  rcases member with (scaled | orphaned) | linked
  · simp only [scalerActions, List.mem_flatMap] at scaled
    rcases scaled with ⟨component, componentMember, scaler, scalerMember, inEvaluate⟩
    rcases List.mem_append.mp inEvaluate with started | stopped
    · simp only [Spread.startActions, List.mem_map, RequiredAction.startInstances.injEq] at started
      rcases started with ⟨_, _, rfl, _, rfl, _⟩
      exact ⟨component, componentMember, scaler, scalerMember, rfl, rfl⟩
    · rcases PlacedInstance.of_mem_stopActions stopped with ⟨_, same⟩
      cases same
  · simp only [orphanActions, List.mem_flatMap] at orphaned
    rcases orphaned with ⟨_, _, stopped⟩
    rcases PlacedInstance.of_mem_stopActions stopped with ⟨_, same⟩
    cases same
  · simp [linkActions] at linked

/-- The actions start of a component with a scaler what the plan for the scaler says. -/
theorem sum_startsOf_evaluate (valid : manifest.isValid = true) {component : Component}
    (member : component ∈ manifest.components) {scaler : SpreadScaler}
    (scaled : component.scalers = [scaler]) (apart : Spread.SitesApart scaler observed)
    (host : HostId) :
    ((evaluate manifest observed).map
        (RequiredAction.startsOf (manifest.componentId component) host)).sum =
      (Spread.plan manifest.name (manifest.componentId component) component scaler
        observed).startsOn host := by
  let startsOf := RequiredAction.startsOf (manifest.componentId component) host
  have noOrphans : ((manifest.orphanActions observed).map startsOf).sum = 0 := by
    apply RequiredAction.sum_startsOf_eq_zero
    intro action actionMember
    rcases List.mem_flatMap.mp actionMember with ⟨_, _, stopped⟩
    exact PlacedInstance.startsOf_of_mem_stopActions stopped
  have noLinks : ((manifest.linkActions observed).map startsOf).sum = 0 := by
    apply RequiredAction.sum_startsOf_eq_zero
    intro action actionMember
    rcases List.mem_append.mp actionMember with added | removed
    · rcases List.mem_map.mp added with ⟨_, _, rfl⟩
      rfl
    · rcases List.mem_map.mp removed with ⟨_, _, rfl⟩
      rfl
  have byComponent : ((manifest.scalerActions observed).map startsOf).sum =
      (manifest.components.map fun owner => ((owner.scalers.flatMap fun scaler =>
        Spread.evaluate manifest.name (manifest.componentId owner) owner scaler observed).map
          startsOf).sum).sum := by
    rw [scalerActions, List.map_flatMap, List.flatMap_def, List.sum_flatten, List.map_map]
    rfl
  have once : manifest.components.count component = 1 :=
    List.count_eq_one_of_mem (List.Nodup.of_map _ (nodup_componentNames valid)) member
  rw [evaluate, List.map_append, List.map_append, List.sum_append, List.sum_append, noOrphans,
    noLinks, byComponent, List.sum_map_eq_nsmul_single component, once]
  · simpa [scaled] using Spread.sum_startsOf_evaluate apart host
  · -- Other components have other identities.
    intro owner different ownerMember
    apply RequiredAction.sum_startsOf_eq_zero
    intro action actionMember
    rcases List.mem_flatMap.mp actionMember with ⟨scaler, _, inEvaluate⟩
    apply Spread.startsOf_of_mem_evaluate _ inEvaluate
    exact fun same => different (eq_of_componentId_eq valid ownerMember member same)

end Manifest

end Reconciler
