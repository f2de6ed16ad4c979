import Mathlib.Data.List.TakeDrop
import Mathlib.Order.Compare
import Reconciler.Proofs.Placement.Conservation
import Reconciler.Proofs.Timestamp

/-!
# The oldest go first

Instances are ordered by age: by the time and the sequence number of their start, and then by host
and name. A site takes the newest of what is left for it, so that whatever it leaves on its hosts is
older than what it takes, and it stays so while further sites take from what is left. The actions
that stop instances list them by age.
-/

namespace Reconciler

namespace PlacedInstance

/-- The order of age: by start, and then by place. -/
def ageOrder : PlacedInstance → PlacedInstance → Ordering :=
  compareLex (compareOn fun placed => placed.record.startedAt)
    (compareLex (compareOn fun placed => placed.record.startedSequence)
      (compareLex (compareOn host) (compareOn id)))

/-- Whether an instance comes before another in the order of age. -/
def OlderThan (first second : PlacedInstance) : Prop :=
  ageOrder first second = .lt

instance (first second : PlacedInstance) : Decidable (first.OlderThan second) :=
  inferInstanceAs (Decidable (_ = _))

instance : Std.TransCmp ageOrder :=
  inferInstanceAs (Std.TransCmp (compareLex _ _))

theorem isOlder_eq (first second : PlacedInstance) :
    first.isOlder second = (ageOrder first second).isLE := by
  have byPlace : ((compare first.host second.host).then (compare first.id second.id) != .gt) =
      ((compare first.host second.host).then (compare first.id second.id)).isLE := by
    cases (compare first.host second.host).then (compare first.id second.id) <;> rfl
  rw [isOlder, byPlace, Bool.eq_iff_iff]
  simp only [ageOrder, compareLex, compareOn, Bool.or_eq_true, Bool.and_eq_true, decide_eq_true_eq,
    beq_iff_eq, Ordering.isLE_then_iff_or, compare_lt_iff_lt, compare_eq_iff_eq, Std.compare_eq_lt,
    Std.compare_eq_iff_eq]

theorem place_eq_of_ageOrder {first second : PlacedInstance}
    (same : ageOrder first second = .eq) : first.place = second.place := by
  simp only [ageOrder, compareLex_eq_eq, compareOn, Std.compare_eq_iff_eq] at same
  exact Prod.ext same.2.2.1 same.2.2.2

theorem olderThan_of_startedAt {first second : PlacedInstance}
    (earlier : first.record.startedAt < second.record.startedAt) : first.OlderThan second := by
  have byStart : compare first.record.startedAt second.record.startedAt = .lt :=
    compare_lt_iff_lt.mpr earlier
  rw [OlderThan, ageOrder, compareLex, compareOn, byStart, Ordering.lt_then]

/-- Instances in different places are listed by age. -/
theorem pairwise_oldestFirst {instances : List PlacedInstance}
    (nodup : (instances.map place).Nodup) : (oldestFirst instances).Pairwise OlderThan := by
  have ordered : (oldestFirst instances).Pairwise
      fun first second => first.isOlder second = true := by
    apply List.pairwise_mergeSort
    · intro first second third
      simp only [isOlder_eq]
      exact Std.TransCmp.isLE_trans
    · intro first second
      simp only [isOlder_eq, Bool.or_eq_true]
      have swapped : ageOrder second first = (ageOrder first second).swap :=
        Std.OrientedCmp.eq_swap
      rw [swapped]
      cases ageOrder first second <;> simp
  have apart : (oldestFirst instances).Pairwise
      fun first second => first.place ≠ second.place :=
    List.pairwise_map.mp (((oldestFirst_perm instances).map place).nodup_iff.mpr nodup)
  refine ordered.imp₂ ?_ apart
  intro first second notLater different
  rw [isOlder_eq] at notLater
  rw [OlderThan]
  cases age : ageOrder first second with
  | lt => rfl
  | eq => exact absurd (place_eq_of_ageOrder age) different
  | gt =>
      rw [age] at notLater
      cases notLater

end PlacedInstance

namespace Spread

namespace Plan

/-- What each of some sites claims when they are served in turn. -/
def claims (plan : Plan) : List (Site × Nat) → List (Site × List PlacedInstance)
  | [] => []
  | (site, wanted) :: shares =>
    let served := plan.serve site wanted
    (site, served.claimed.drop plan.claimed.length) :: served.claims shares

section Claims

variable {plan : Plan} {site : Site} {wanted : Nat} {shares : List (Site × Nat)}

theorem claims_cons :
    plan.claims ((site, wanted) :: shares) =
      (site, site.newest wanted plan.unclaimed) :: (plan.serve site wanted).claims shares := by
  rw [claims, serve_claimed, List.drop_left]

theorem claims_fst : (plan.claims shares).map Prod.fst = shares.map Prod.fst := by
  induction shares generalizing plan with
  | nil => rfl
  | cons share rest ih => rw [claims_cons, List.map_cons, List.map_cons, ih]

/-- All claims together are what the plan has claimed in the end. -/
theorem claimed_serveAll :
    (plan.serveAll shares).claimed = plan.claimed ++ (plan.claims shares).flatMap Prod.snd := by
  induction shares generalizing plan with
  | nil => exact (List.append_nil _).symm
  | cons share rest ih =>
      rw [serveAll_cons, ih, serve_claimed, claims_cons, List.flatMap_cons, List.append_assoc]

/-- What a site leaves on its hosts is older than what it takes. -/
theorem olderThan_newest (ordered : plan.unclaimed.Pairwise PlacedInstance.OlderThan)
    {left taken : PlacedInstance} (isLeft : left ∈ (plan.serve site wanted).unclaimed)
    (onSite : left.host ∈ site.hosts) (isTaken : taken ∈ site.newest wanted plan.unclaimed) :
    left.OlderThan taken := by
  let available := plan.unclaimed.filter site.holds
  let excess := available.length - wanted
  rw [serve_unclaimed, List.mem_filter] at isLeft
  have notTaken : left ∉ site.newest wanted plan.unclaimed := by simpa using isLeft.2
  have isAvailable : left ∈ available.take excess ++ available.drop excess := by
    rw [List.take_append_drop]
    exact List.mem_filter.mpr ⟨isLeft.1, Site.holds_iff.mpr onSite⟩
  have passedOver : left ∈ available.take excess :=
    (List.mem_append.mp isAvailable).resolve_right notTaken
  have parts : (available.take excess ++ available.drop excess).Pairwise
      PlacedInstance.OlderThan := by
    rw [List.take_append_drop]
    exact ordered.filter _
  exact (List.pairwise_append.mp parts).2.2 left passedOver taken isTaken

/-- What is left in the end on the hosts of a site is older than what the site has claimed. -/
theorem olderThan_claims (ordered : plan.unclaimed.Pairwise PlacedInstance.OlderThan)
    {claimed : List PlacedInstance} (claims : (site, claimed) ∈ plan.claims shares)
    {left taken : PlacedInstance} (isLeft : left ∈ (plan.serveAll shares).unclaimed)
    (onSite : left.host ∈ site.hosts) (isTaken : taken ∈ claimed) : left.OlderThan taken := by
  induction shares generalizing plan with
  | nil => cases claims
  | cons share rest ih =>
      rcases share with ⟨first, wanted⟩
      rw [claims_cons, List.mem_cons] at claims
      rcases claims with same | claimsLater
      · -- What the sites that are served later leave was left by this one.
        rw [Prod.mk.injEq] at same
        rcases same with ⟨rfl, rfl⟩
        have leftHere := (unclaimed_serveAll_sublist _ rest).subset isLeft
        exact olderThan_newest ordered leftHere onSite isTaken
      · apply ih _ claimsLater isLeft
        rw [serve_unclaimed]
        exact ordered.filter _

end Claims

end Plan

/-- What each site of a scaler, one for each target, keeps of the instances of a component. -/
def keptBySite (app : AppName) (id : ComponentId) (component : Component) (scaler : SpreadScaler)
    (observed : ObservedState) : List (Site × List PlacedInstance) :=
  (Plan.initial (current app id component observed)).claims
    (allocate scaler.instances (sitesOf scaler observed))

section Evaluation

variable {app : AppName} {id : ComponentId} {component : Component} {scaler : SpreadScaler}
  {observed : ObservedState}

theorem keptBySite_fst :
    (keptBySite app id component scaler observed).map Prod.fst = sitesOf scaler observed := by
  rw [keptBySite, Plan.claims_fst, allocate_fst]

theorem keptBySite_perm :
    ((keptBySite app id component scaler observed).flatMap Prod.snd).Perm
      (kept app id component scaler observed) := by
  have claimed : (plan app id component scaler observed).claimed =
      (keptBySite app id component scaler observed).flatMap Prod.snd := by
    rw [plan_eq, Plan.claimed_serveAll]
    rfl
  exact claimed ▸ kept_perm.symm

/-- An instance that is stopped for want of a claim is older than those that its sites keep. -/
theorem olderThan_keptBySite {site : Site} {claimed : List PlacedInstance}
    (claims : (site, claimed) ∈ keptBySite app id component scaler observed)
    {newer older : PlacedInstance} (isKept : newer ∈ claimed)
    (isStopped : older ∈ stopped app id component scaler observed)
    (isCurrent : isCurrent component older = true) (onSite : older.host ∈ site.hosts) :
    older.OlderThan newer := by
  have ordered : (current app id component observed).Pairwise PlacedInstance.OlderThan := by
    apply List.Pairwise.filter
    apply PlacedInstance.pairwise_oldestFirst
    exact (observed.nodup_managed_places app).sublist (List.filter_sublist.map _)
  have unclaimed : older ∈ (plan app id component scaler observed).unclaimed := by
    rcases (mem_stopped_iff.mp isStopped).2 with outdated | unclaimed
    · rw [isCurrent] at outdated
      cases outdated
    · exact unclaimed
  rw [plan_eq] at unclaimed
  exact Plan.olderThan_claims ordered claims unclaimed onSite isKept

end Evaluation

end Spread

namespace ObservedState

/-- Whether an action, if it stops instances of a component on a host, lists such by age. -/
def StopsOldestFirst (observed : ObservedState) : RequiredAction → Prop
  | .stopInstances component host ids =>
    ∃ listed : List PlacedInstance, listed.map PlacedInstance.id = ids ∧
      listed.Pairwise PlacedInstance.OlderThan ∧
      ∀ placed ∈ listed, placed ∈ observed.placedInstances ∧ placed.host = host ∧
        placed.record.component = component
  | _ => True

theorem stopsOldestFirst_of_mem_stopActions {observed : ObservedState} {component : ComponentId}
    {instances : List PlacedInstance} (nodup : (instances.map PlacedInstance.place).Nodup)
    (ofComponent : ∀ placed ∈ instances,
      placed ∈ observed.placedInstances ∧ placed.record.component = component)
    {action : RequiredAction} (member : action ∈ PlacedInstance.stopActions component instances) :
    observed.StopsOldestFirst action := by
  rcases PlacedInstance.of_mem_stopActions member with ⟨host, rfl⟩
  refine ⟨_, rfl, (PlacedInstance.pairwise_oldestFirst nodup).filter _, ?_⟩
  intro placed listed
  rcases List.mem_filter.mp listed with ⟨inOrder, onHost⟩
  rcases ofComponent placed (PlacedInstance.mem_oldestFirst.mp inOrder) with ⟨isPlaced, named⟩
  exact ⟨isPlaced, of_decide_eq_true onHost, named⟩

/-- Whatever is evaluated stops the oldest first. -/
theorem stopsOldestFirst_of_mem_evaluate {manifest : Manifest} {observed : ObservedState}
    {action : RequiredAction} (member : action ∈ evaluate manifest observed) :
    observed.StopsOldestFirst action := by
  rw [evaluate, List.mem_append, List.mem_append] at member
  rcases member with (scaled | orphaned) | linked
  · simp only [Manifest.scalerActions, List.mem_flatMap] at scaled
    rcases scaled with ⟨component, _, scaler, _, inEvaluate⟩
    rw [Spread.evaluate, List.mem_append] at inEvaluate
    rcases inEvaluate with started | stopped
    · rcases List.mem_map.mp started with ⟨_, _, rfl⟩
      exact trivial
    · refine stopsOldestFirst_of_mem_stopActions ?_ ?_ stopped
      · exact (Spread.nodup_pool_places _ _ _).sublist (List.filter_sublist.map _)
      · intro placed inSurplus
        rcases Spread.mem_pool_iff.mp (List.mem_of_mem_filter inSurplus) with ⟨managed, named⟩
        exact ⟨List.mem_of_mem_filter managed, named⟩
  · simp only [Manifest.orphanActions, List.mem_flatMap, Prod.exists] at orphaned
    rcases orphaned with ⟨component, group, collected, stopped⟩
    have ofComponent := (SortedMap.mem_entries_collect_iff.mp collected).2
    refine stopsOldestFirst_of_mem_stopActions ?_ ?_ stopped
    · rw [ofComponent]
      apply List.Nodup.sublist _ (observed.nodup_managed_places manifest.name)
      exact (List.filter_sublist.trans List.filter_sublist).map _
    · intro placed inGroup
      rw [ofComponent, List.mem_filter, Manifest.orphans, List.mem_filter] at inGroup
      exact ⟨List.mem_of_mem_filter inGroup.1.1, of_decide_eq_true inGroup.2⟩
  · rcases List.mem_append.mp linked with added | removed
    · rcases List.mem_map.mp added with ⟨_, _, rfl⟩
      exact trivial
    · rcases List.mem_map.mp removed with ⟨_, _, rfl⟩
      exact trivial

end ObservedState

namespace Spread

/--
For want of instances to be stopped, the oldest are: whatever a target keeps is newer than what is
stopped of the same image on the hosts that the target accepts, even where targets overlap and claim
in turn. Every action that stops instances, also at the end of an application, lists them by age.
-/
theorem surplus_oldest (app : AppName) (id : ComponentId) (component : Component)
    (scaler : SpreadScaler) (manifest : Manifest) (observed : ObservedState) :
    let keptBySite := keptBySite app id component scaler observed
    let actions := evaluate app id component scaler observed
    keptBySite.map Prod.fst = sitesOf scaler observed ∧
      (keptBySite.flatMap Prod.snd).Perm (kept app id component scaler observed) ∧
      (∀ site claimed, (site, claimed) ∈ keptBySite → ∀ newer ∈ claimed,
        ∀ older ∈ pool app id observed, isCurrent component older = true →
          older.place ∈ actions.flatMap RequiredAction.stoppedPlaces →
          (∃ host, observed.host? older.host = some host ∧
            site.target.accepts host.labels = true) →
          older.OlderThan newer) ∧
      (∀ action ∈ Reconciler.evaluate manifest observed, observed.StopsOldestFirst action) ∧
      ∀ action ∈ evaluateTeardown app observed, observed.StopsOldestFirst action := by
  intro keptBySite actions
  refine ⟨keptBySite_fst, keptBySite_perm, ?_, ?_, ?_⟩
  · intro site claimed claims newer isKept older inPool isCurrent isStopped accepted
    have member : site ∈ sitesOf scaler observed :=
      keptBySite_fst ▸ List.mem_map_of_mem claims
    rcases List.mem_map.mp member with ⟨target, _, rfl⟩
    apply olderThan_keptBySite claims isKept _ isCurrent (mem_acceptedHosts_iff.mpr accepted)
    exact (place_mem_evaluate_iff inPool).mp isStopped
  · exact fun action => ObservedState.stopsOldestFirst_of_mem_evaluate
  · exact fun action => ObservedState.stopsOldestFirst_of_mem_evaluate

/--
A zone and the whole lattice in turn keep one instance each; the older ones on the host of the zone
give way to the instance on the other host, and at the end of the application go before the rest.
-/
theorem surplus_oldest_of_overlap :
    let inZone : WeightedTarget := (WeightedTarget.new "zone" 1).require "zone" "a"
    let scaler := ((SpreadScaler.new 2).withTarget inZone).withTarget (.new "any" 1)
    let component := (Component.new "api" .component "registry/api:2").withTrait
      (.spreadScaler scaler)
    let manifest := (Manifest.new ⟨"shop"⟩ "v1").withComponent component
    let event (host : String) (sequence : UInt64) (kind : LatticeEventKind) : LatticeEvent :=
      ⟨⟨"prod"⟩, ⟨host⟩, sequence, ⟨sequence.toNat, 0⟩, kind⟩
    let started (host : String) (sequence : UInt64) (id : String) : LatticeEvent :=
      event host sequence (.instanceStarted ⟨"shop-api"⟩ .component "registry/api:2" ⟨id⟩
        (.forApp ⟨"shop"⟩))
    let observed : ObservedState := .replay ⟨"prod"⟩
      [event "host-a" 1 (.hostStarted (.ofList [("zone", "a")]) none),
        event "host-b" 1 (.hostStarted ∅ none), started "host-a" 2 "i-1", started "host-a" 3 "i-2",
        started "host-a" 4 "i-3", started "host-b" 5 "i-4"]
    let placed (host id : String) (sequence : UInt64) : PlacedInstance :=
      ⟨⟨host⟩, ⟨id⟩, ⟨⟨"shop-api"⟩, .component, "registry/api:2", .forApp ⟨"shop"⟩,
        ⟨sequence.toNat, 0⟩, sequence, .running⟩⟩
    let stop (ids : List InstanceId) : RequiredAction :=
      .stopInstances ⟨"shop-api"⟩ ⟨"host-a"⟩ ids
    keptBySite ⟨"shop"⟩ ⟨"shop-api"⟩ component scaler observed =
        [(⟨inZone, [⟨"host-a"⟩]⟩, [placed "host-a" "i-3" 4]),
          (⟨.new "any" 1, [⟨"host-a"⟩, ⟨"host-b"⟩]⟩, [placed "host-b" "i-4" 5])] ∧
      (placed "host-a" "i-1" 2).OlderThan (placed "host-b" "i-4" 5) ∧
      stop [⟨"i-1"⟩, ⟨"i-2"⟩] ∈ Reconciler.evaluate manifest observed ∧
      observed.StopsOldestFirst (stop [⟨"i-1"⟩, ⟨"i-2"⟩]) ∧
      stop [⟨"i-1"⟩, ⟨"i-2"⟩, ⟨"i-3"⟩] ∈ evaluateTeardown ⟨"shop"⟩ observed ∧
      observed.StopsOldestFirst (stop [⟨"i-1"⟩, ⟨"i-2"⟩, ⟨"i-3"⟩]) := by
  intro inZone scaler component manifest event started observed placed stop
  have byAge : (observed.managedInstances ⟨"shop"⟩).Pairwise
      fun first second => first.isOlder second = true := by decide +kernel
  have inPool : pool ⟨"shop"⟩ ⟨"shop-api"⟩ observed =
      [placed "host-a" "i-1" 2, placed "host-a" "i-2" 3, placed "host-a" "i-3" 4,
        placed "host-b" "i-4" 5] := by
    rw [pool, PlacedInstance.oldestFirst, List.mergeSort_of_pairwise (byAge.filter _)]
    decide +kernel
  have sites : sitesOf scaler observed =
      [⟨inZone, [⟨"host-a"⟩]⟩, ⟨.new "any" 1, [⟨"host-a"⟩, ⟨"host-b"⟩]⟩] := by decide +kernel
  have shared : Allocation.largestRemainder 2 [1, 1] = [1, 1] := by cbv
  have allocated : allocate scaler.instances (sitesOf scaler observed) =
      [(⟨inZone, [⟨"host-a"⟩]⟩, 1), (⟨.new "any" 1, [⟨"host-a"⟩, ⟨"host-b"⟩]⟩, 1)] := by
    rw [sites]
    exact congrArg (assignShares _) shared
  have keeps : keptBySite ⟨"shop"⟩ ⟨"shop-api"⟩ component scaler observed =
      [(⟨inZone, [⟨"host-a"⟩]⟩, [placed "host-a" "i-3" 4]),
        (⟨.new "any" 1, [⟨"host-a"⟩, ⟨"host-b"⟩]⟩, [placed "host-b" "i-4" 5])] := by
    rw [keptBySite, current, allocated, inPool]
    decide +kernel
  have surplusIs : surplus component (plan ⟨"shop"⟩ ⟨"shop-api"⟩ component scaler observed)
      (pool ⟨"shop"⟩ ⟨"shop-api"⟩ observed) =
        [placed "host-a" "i-1" 2, placed "host-a" "i-2" 3] := by
    rw [plan, allocated, inPool]
    decide +kernel
  have orphans : (SortedMap.collect (fun placed => placed.record.component)
      ((Manifest.new ⟨"shop"⟩ "").orphans observed)).entries =
        [(⟨"shop-api"⟩, observed.managedInstances ⟨"shop"⟩)] := by decide +kernel
  have law := surplus_oldest ⟨"shop"⟩ ⟨"shop-api"⟩ component scaler manifest observed
  have older : (placed "host-a" "i-1" 2).OlderThan (placed "host-b" "i-4" 5) := by
    apply law.2.2.1 ⟨.new "any" 1, [⟨"host-a"⟩, ⟨"host-b"⟩]⟩ [placed "host-b" "i-4" 5]
    · rw [keeps]
      exact List.mem_cons_of_mem _ List.mem_cons_self
    · exact List.mem_cons_self
    · rw [inPool]
      exact List.mem_cons_self
    · decide +kernel
    · rw [evaluate_places_perm.mem_iff, stopped, surplusIs]
      decide +kernel
    · exact ⟨(observed.host? ⟨"host-a"⟩).get (by decide +kernel), by decide +kernel, rfl⟩
  have app : manifest.name = ⟨"shop"⟩ := rfl
  have named : manifest.componentId component = ⟨"shop-api"⟩ := by decide +kernel
  have sorted : [placed "host-a" "i-1" 2, placed "host-a" "i-2" 3].Pairwise
      fun first second => first.isOlder second = true := by decide +kernel
  have stops : stop [⟨"i-1"⟩, ⟨"i-2"⟩] ∈ Reconciler.evaluate manifest observed := by
    apply List.mem_append_left
    apply List.mem_append_left
    apply List.mem_flatMap.mpr ⟨component, List.mem_cons_self, _⟩
    apply List.mem_flatMap.mpr ⟨scaler, List.mem_cons_self, _⟩
    rw [named]
    apply List.mem_append_right
    rw [app, surplusIs, PlacedInstance.stopActions, PlacedInstance.oldestFirst,
      List.mergeSort_of_pairwise sorted]
    decide +kernel
  have stopsAll : stop [⟨"i-1"⟩, ⟨"i-2"⟩, ⟨"i-3"⟩] ∈ evaluateTeardown ⟨"shop"⟩ observed := by
    apply List.mem_append_left
    apply List.mem_append_right
    rw [Manifest.orphanActions, orphans]
    apply List.mem_flatMap.mpr ⟨_, List.mem_cons_self, _⟩
    simp only [PlacedInstance.stopActions, PlacedInstance.oldestFirst,
      List.mergeSort_of_pairwise byAge]
    decide +kernel
  exact ⟨keeps, older, stops, law.2.2.2.1 _ stops, stopsAll, law.2.2.2.2 _ stopsAll⟩

end Spread

end Reconciler
