import Reconciler.Proofs.Placement.Convergence
import Reconciler.Proofs.Placement.Removal

/-!
# Clearing a lattice of an application

The actions that remove an application name what it has in the lattice, each instance and each link
once, and nothing else. When they have been carried out, in whatever order, nothing of the
application is left.
-/

namespace Reconciler

namespace RequiredAction

/-- The key of the link that an action removes. -/
def removedKey? : RequiredAction → Option LinkKey
  | removeLink key => some key
  | _ => none

/-- Of actions that start nothing, it is enough that each is shown and the events come in turn. -/
theorem CarriedOut.of_isDestructive {app : AppName} {actions : List RequiredAction}
    {state : ObservedState} {events : List LatticeEvent}
    {reports : List (RequiredAction × List LatticeEvent)}
    (destructive : ∀ action ∈ actions, action.kind.isDestructive = true)
    (answered : reports.map Prod.fst = actions)
    (shown : ∀ report ∈ reports, report.1.ShownBy app report.2)
    (perm : events.Perm (reports.flatMap Prod.snd)) (inTurn : state.InTurn events) :
    CarriedOut app actions state events := by
  have noStarts : events.filterMap LatticeEvent.started? = [] := by
    refine List.filterMap_eq_nil_iff.mpr fun event member => ?_
    rcases List.mem_flatMap.mp (perm.mem_iff.mp member) with ⟨report, reportMember, inReport⟩
    have effect := (shown report reportMember).isEffect inReport
    have kind := destructive report.1 (answered ▸ List.mem_map_of_mem reportMember)
    cases started : event.started? with
    | none => rfl
    | some placed =>
        rcases (effect.of_started? started).2 with ⟨_, _, _, same⟩
        rw [same] at kind
        cases kind
  refine ⟨⟨reports, answered, shown, perm⟩, ?_, ?_, inTurn⟩
  · rw [noStarts]
    exact List.nodup_nil
  · rw [noStarts]
    exact fun _ member => absurd member List.not_mem_nil

end RequiredAction

open RequiredAction (CarriedOut)

variable {app : AppName} {observed : ObservedState}

theorem stopped_new (app : AppName) (version : String) (observed : ObservedState) :
    (Manifest.new app version).stopped observed = observed.managedInstances app :=
  orphans_new app version observed

/-- A removal stops the instances of the application, each in its place. -/
theorem evaluateTeardown_places_perm (app : AppName) (observed : ObservedState) :
    ((evaluateTeardown app observed).flatMap RequiredAction.stoppedPlaces).Perm
      ((observed.managedInstances app).map PlacedInstance.place) :=
  stopped_new app "" observed ▸ Manifest.evaluate_places_perm (.new app "") observed

/-- A removal removes the links of the application, in key order. -/
theorem removedKeys_evaluateTeardown (app : AppName) (observed : ObservedState) :
    (evaluateTeardown app observed).filterMap RequiredAction.removedKey? =
      (observed.linksOwnedBy app).map ActiveLink.key := by
  have noScalers : (Manifest.new app "").scalerActions observed = [] := rfl
  have noStops : ((Manifest.new app "").orphanActions observed).filterMap
      RequiredAction.removedKey? = [] := by
    refine List.filterMap_eq_nil_iff.mpr fun action member => ?_
    rcases List.mem_flatMap.mp member with ⟨_, _, stopped⟩
    rcases PlacedInstance.of_mem_stopActions stopped with ⟨_, rfl⟩
    rfl
  rw [evaluateTeardown, evaluate, noScalers, List.nil_append, List.filterMap_append, noStops,
    List.nil_append, linkActions_new, List.filterMap_map]
  exact congrFun (List.filterMap_eq_map (f := ActiveLink.key)) _

theorem ObservedState.Reachable.nodup_ownedKeys (reachable : observed.Reachable) (app : AppName) :
    ((observed.linksOwnedBy app).map ActiveLink.key).Nodup := by
  have keys : observed.links.values.map ActiveLink.key = observed.links.keys :=
    SortedMap.map_values_eq_keys fun _ _ => reachable.key_link
  have nodup : (observed.links.values.map ActiveLink.key).Nodup := keys ▸ SortedMap.nodup_keys _
  exact nodup.sublist (List.filter_sublist.map _)

/-- Nothing of an application is left when its removal has been carried out. -/
theorem isClearOf_afterAll (reachable : observed.Reachable) {events : List LatticeEvent}
    (carriedOut : CarriedOut app (evaluateTeardown app observed) observed events) :
    (observed.afterAll events).isClearOf app = true := by
  have noScalers : (Manifest.new app "").scalerActions (observed.afterAll events) = [] := rfl
  have noOrphans : (Manifest.new app "").orphanActions (observed.afterAll events) = [] :=
    orphanActions_eq_nil_iff.mpr (Manifest.orphans_afterAll carriedOut)
  rw [← evaluateTeardown_eq_nil_iff, evaluateTeardown, evaluate, noScalers, noOrphans,
    Manifest.linkActions_afterAll carriedOut reachable]
  rfl

/--
The removal of an application is exact. It asks for nothing exactly if nothing of the application is
left; it stops the instances of the application, each once, in its place and under its component,
and removes the links that the application owns, each once, and does nothing else. Once every stop
and every removal has been reported, in any order, nothing of the application is left.
-/
theorem teardown_exact (app : AppName) (reachable : observed.Reachable) :
    let actions := evaluateTeardown app observed
    let stoppedPlaces := actions.flatMap RequiredAction.stoppedPlaces
    let removedKeys := actions.filterMap RequiredAction.removedKey?
    (actions = [] ↔ observed.isClearOf app = true) ∧
      (∀ action ∈ actions, action.kind = .stop ∨ action.kind = .removeLink) ∧
      (stoppedPlaces.Nodup ∧
        stoppedPlaces.Perm ((observed.managedInstances app).map PlacedInstance.place)) ∧
      (∀ component host ids, .stopInstances component host ids ∈ actions → ∀ id ∈ ids,
        ∃ record, observed.instance? host id = some record ∧ record.component = component) ∧
      (removedKeys.Nodup ∧ removedKeys = (observed.linksOwnedBy app).map ActiveLink.key) ∧
      ∀ (reports : List (RequiredAction × List LatticeEvent)) (events : List LatticeEvent),
        reports.map Prod.fst = actions →
        (∀ report ∈ reports, report.1.ShownBy app report.2) →
        events.Perm (reports.flatMap Prod.snd) → observed.InTurn events →
        (observed.afterAll events).isClearOf app = true := by
  intro actions stoppedPlaces removedKeys
  have places : stoppedPlaces.Perm _ := evaluateTeardown_places_perm app observed
  have keys : removedKeys = _ := removedKeys_evaluateTeardown app observed
  refine ⟨evaluateTeardown_eq_nil_iff, ?_, ⟨?_, places⟩, ?_, ⟨?_, keys⟩, ?_⟩
  · intro action member
    have destructive := isDestructive_of_mem_evaluateTeardown member
    cases action with
    | stopInstances component host ids => exact Or.inl rfl
    | removeLink key => exact Or.inr rfl
    | startInstances component kind imageRef host selector count => cases destructive
    | addLink link => cases destructive
  · exact places.nodup_iff.mpr (observed.nodup_managed_places app)
  · intro component host ids member id isNamed
    rcases Manifest.exists_stopped_of_mem_evaluate member isNamed with
      ⟨placed, isStopped, place, ofComponent⟩
    obtain ⟨rfl, rfl⟩ : placed.host = host ∧ placed.id = id := Prod.mk.inj place
    have managed := Manifest.managed_of_mem_stopped isStopped
    exact ⟨placed.record, (ObservedState.mem_managedInstances_iff.mp managed).1, ofComponent⟩
  · exact keys ▸ reachable.nodup_ownedKeys app
  · intro reports events answered shown perm inTurn
    exact isClearOf_afterAll reachable (.of_isDestructive
      (fun action => isDestructive_of_mem_evaluateTeardown) answered shown perm inTurn)

/-- Two components on two hosts and a link go; what runs for another application stays. -/
theorem teardown_exact_of_two_hosts :
    let event (host : String) (sequence : UInt64) (kind : LatticeEventKind) : LatticeEvent :=
      ⟨⟨"prod"⟩, ⟨host⟩, sequence, ⟨sequence.toNat, 0⟩, kind⟩
    let started (host : String) (sequence : UInt64) (component id app : String) : LatticeEvent :=
      event host sequence
        (.instanceStarted ⟨component⟩ .component "registry/api:1" ⟨id⟩ (.forApp ⟨app⟩))
    let key : LinkKey := ⟨⟨"shop-api"⟩, "default", "wasi", "http"⟩
    let observed : ObservedState := .replay ⟨"prod"⟩
      [started "host-a" 1 "shop-api" "i-1" "shop", started "host-b" 2 "shop-kv" "i-1" "shop",
        started "host-b" 3 "bank-api" "i-2" "bank",
        event "host-b" 4 (.linkSet ⟨key, "edge", [], ∅, some ⟨"shop"⟩⟩)]
    let stoppedA := event "host-a" 9 (.instanceStopped ⟨"shop-api"⟩ ⟨"i-1"⟩)
    let stoppedB := event "host-b" 6 (.instanceStopped ⟨"shop-kv"⟩ ⟨"i-1"⟩)
    let deleted := event "host-b" 5 (.linkDeleted key)
    let events : List LatticeEvent := [deleted, stoppedA, stoppedB]
    let reports : List (RequiredAction × List LatticeEvent) :=
      [(.stopInstances ⟨"shop-api"⟩ ⟨"host-a"⟩ [⟨"i-1"⟩], [stoppedA]),
        (.stopInstances ⟨"shop-kv"⟩ ⟨"host-b"⟩ [⟨"i-1"⟩], [stoppedB]),
        (.removeLink key, [deleted])]
    observed.Reachable ∧ reports.map Prod.fst = evaluateTeardown ⟨"shop"⟩ observed ∧
      observed.InTurn events ∧ observed.isClearOf ⟨"shop"⟩ = false ∧
      (observed.afterAll events).isClearOf ⟨"shop"⟩ = true ∧
      (observed.afterAll events).isClearOf ⟨"bank"⟩ = false := by
  intro event started key observed stoppedA stoppedB deleted events reports
  have reachable : observed.Reachable := (ObservedState.Reachable.empty ⟨"prod"⟩).afterAll _
  have answered : reports.map Prod.fst = evaluateTeardown ⟨"shop"⟩ observed := by decide +kernel
  have inTurn : observed.InTurn events := by decide +kernel
  have shown : ∀ report ∈ reports, report.1.ShownBy ⟨"shop"⟩ report.2 := by
    simp only [reports, List.forall_mem_cons]
    exact ⟨.cons ⟨rfl, _, rfl⟩ .nil, .cons ⟨rfl, _, rfl⟩ .nil, ⟨_, rfl, rfl⟩,
      List.forall_mem_nil _⟩
  have perm : events.Perm (reports.flatMap Prod.snd) := by decide +kernel
  exact ⟨reachable, answered, inTurn, by decide +kernel,
    (teardown_exact ⟨"shop"⟩ reachable).2.2.2.2.2 reports events answered shown perm inTurn,
    by decide +kernel⟩

end Reconciler
