import Reconciler.Proofs.Placement.Shares
import Reconciler.Proofs.Placement.Starts

/-!
# Conservation

However the targets of a scaler overlap, what evaluation keeps and what it starts make up what the
scaler asks for. Serving a site moves instances from the unclaimed to the claimed ones and starts
what the site lacks, so that claims and starts together grow by what the site wants; over all sites
this is the total, since the shares make up the total.
-/

namespace Reconciler

/-- The number of instances that an action starts. -/
def RequiredAction.startCount : RequiredAction → Nat
  | startInstances _ _ _ _ _ count => count.toNat
  | _ => 0

namespace Spread

namespace Plan

/-- The number of instances that are started, on all hosts together. -/
def started (plan : Plan) : Nat :=
  (plan.starts.values.map Start.count).sum

section Serving

variable (plan : Plan) (site : Site)

theorem count_le_started {host : HostId} {start : Start}
    (found : plan.starts.find? host = some start) : start.count ≤ plan.started :=
  List.le_sum_of_mem (List.mem_map_of_mem (SortedMap.mem_values_iff.mpr ⟨host, found⟩))

theorem started_startOn (selector : Labels) (host : HostId) :
    (plan.startOn selector host).started = plan.started + 1 := by
  let start : Start := (plan.starts.find? host).getD ⟨selector, 0⟩
  have replaced := plan.starts.sum_values_insert host ⟨start.selector, start.count + 1⟩ Start.count
  have before : ((plan.starts.find? host).map Start.count).getD 0 = start.count := by
    simp only [start]
    cases plan.starts.find? host <;> rfl
  rw [before] at replaced
  have after : (plan.startOn selector host).started + start.count =
      plan.started + (start.count + 1) := replaced
  omega

theorem started_startMany (missing : Nat) (nonempty : site.hosts ≠ []) :
    (startMany site missing plan).started = plan.started + missing := by
  induction missing generalizing plan with
  | zero => rfl
  | succ missing ih =>
      rcases plan.leastLoaded?_isSome nonempty with ⟨host, found⟩
      rw [startMany, found]
      simp only
      rw [ih, started_startOn]
      omega

theorem startMany_claimed (missing : Nat) :
    (startMany site missing plan).claimed = plan.claimed := by
  induction missing generalizing plan with
  | zero => rfl
  | succ missing ih =>
      rw [startMany]
      split
      · rfl
      · exact ih _

theorem serve_claimed (wanted : Nat) :
    (plan.serve site wanted).claimed = plan.claimed ++ site.newest wanted plan.unclaimed := by
  rw [serve_eq, startMany_claimed, claim_claimed]

/-- A site starts what it lacks, if it has hosts. -/
theorem started_serve (wanted : Nat) (placeable : site.hosts = [] → wanted = 0) :
    (plan.serve site wanted).started =
      plan.started + (wanted - (site.newest wanted plan.unclaimed).length) := by
  have sameStarts : (plan.claim site wanted).started = plan.started := by
    rw [Plan.started, claim_starts, Plan.started]
  rw [serve_eq, ← sameStarts]
  by_cases noHosts : site.hosts = []
  · rw [placeable noHosts, Nat.zero_sub]
    rfl
  · exact started_startMany _ site _ noHosts

/-- Claims and starts together grow by what a site wants, if it has hosts. -/
theorem length_claimed_add_started_serve {wanted : Nat}
    (placeable : site.hosts = [] → wanted = 0) :
    (plan.serve site wanted).claimed.length + (plan.serve site wanted).started =
      plan.claimed.length + plan.started + wanted := by
  have enough := site.length_newest_le wanted plan.unclaimed
  rw [plan.started_serve site wanted placeable, serve_claimed, List.length_append]
  omega

/-- Serving a site moves instances from the unclaimed to the claimed ones. -/
theorem claimed_append_unclaimed_serve (wanted : Nat) (nodup : plan.unclaimed.Nodup) :
    ((plan.serve site wanted).claimed ++ (plan.serve site wanted).unclaimed).Perm
      (plan.claimed ++ plan.unclaimed) := by
  let taken := site.newest wanted plan.unclaimed
  have takenSublist : taken.Sublist plan.unclaimed :=
    (Site.newest_sublist _ _ _).trans List.filter_sublist
  have chosen : (plan.unclaimed.filter fun placed => taken.contains placed).Perm taken := by
    apply (List.perm_ext_iff_of_nodup (nodup.filter _) (nodup.sublist takenSublist)).mpr
    intro placed
    rw [List.mem_filter, List.contains_iff_mem]
    exact and_iff_right_of_imp fun member => takenSublist.subset member
  rw [serve_claimed, serve_unclaimed, List.append_assoc]
  apply List.Perm.append_left
  exact (chosen.symm.append_right _).trans (List.filter_append_perm _ _)

end Serving

section ServingAll

variable {plan : Plan} {shares : List (Site × Nat)}

theorem length_claimed_add_started_serveAll
    (placeable : ∀ share ∈ shares, share.1.hosts = [] → share.2 = 0) :
    (plan.serveAll shares).claimed.length + (plan.serveAll shares).started =
      plan.claimed.length + plan.started + (shares.map Prod.snd).sum := by
  induction shares generalizing plan with
  | nil => rfl
  | cons share rest ih =>
      rcases List.forall_mem_cons.mp placeable with ⟨here, inRest⟩
      have step := plan.length_claimed_add_started_serve share.1 here
      rw [serveAll_cons, ih inRest, List.map_cons, List.sum_cons, step]
      omega

theorem claimed_append_unclaimed_serveAll (nodup : plan.unclaimed.Nodup) :
    ((plan.serveAll shares).claimed ++ (plan.serveAll shares).unclaimed).Perm
      (plan.claimed ++ plan.unclaimed) := by
  induction shares generalizing plan with
  | nil => exact List.Perm.refl _
  | cons share rest ih =>
      have stillNodup : (plan.serve share.1 share.2).unclaimed.Nodup := by
        rw [serve_unclaimed]
        exact nodup.filter _
      rw [serveAll_cons]
      exact (ih stillNodup).trans (plan.claimed_append_unclaimed_serve share.1 share.2 nodup)

end ServingAll

/-- Whatever is started is started at least once, on a host of a site and for its requirements. -/
def StartsFor (plan : Plan) (sites : List Site) : Prop :=
  ∀ host start, plan.starts.find? host = some start →
    0 < start.count ∧ ∃ site ∈ sites, host ∈ site.hosts ∧ start.selector = site.target.requirements

section StartsFor

variable {plan : Plan} {sites : List Site} {site : Site}

theorem StartsFor.startOn (starts : plan.StartsFor sites) (member : site ∈ sites) {host : HostId}
    (onSite : host ∈ site.hosts) :
    (plan.startOn site.target.requirements host).StartsFor sites := by
  intro other start found
  simp only [Plan.startOn, addLoad, SortedMap.find?_insert] at found
  split at found
  · rename_i same
    rw [Option.some.injEq] at found
    subst same found
    refine ⟨Nat.succ_pos _, ?_⟩
    cases before : plan.starts.find? other with
    | none => exact ⟨site, member, onSite, rfl⟩
    | some former => exact (starts other former before).2
  · exact starts other start found

theorem StartsFor.startMany (starts : plan.StartsFor sites) (member : site ∈ sites)
    (missing : Nat) : (startMany site missing plan).StartsFor sites := by
  induction missing generalizing plan with
  | zero => exact starts
  | succ missing ih =>
      rw [Plan.startMany]
      split
      · exact starts
      · rename_i host found
        exact ih (starts.startOn member (plan.leastLoaded?_mem found))

theorem StartsFor.serve (starts : plan.StartsFor sites) (member : site ∈ sites) (wanted : Nat) :
    (plan.serve site wanted).StartsFor sites := by
  rw [serve_eq]
  apply StartsFor.startMany _ member
  intro host start found
  rw [claim_starts] at found
  exact starts host start found

theorem StartsFor.serveAll {shares : List (Site × Nat)} (starts : plan.StartsFor sites)
    (members : ∀ share ∈ shares, share.1 ∈ sites) : (plan.serveAll shares).StartsFor sites := by
  induction shares generalizing plan with
  | nil => exact starts
  | cons share rest ih =>
      rcases List.forall_mem_cons.mp members with ⟨here, inRest⟩
      exact ih (starts.serve here share.2) inRest

end StartsFor

end Plan

section Allocation

theorem sum_assignShares {sites : List Site} {shares : List UInt32}
    (enough : shares.length = (sites.filter fun site => !site.hosts.isEmpty).length) :
    ((assignShares sites shares).map Prod.snd).sum = (shares.map UInt32.toNat).sum := by
  induction sites generalizing shares with
  | nil =>
      rw [List.eq_nil_of_length_eq_zero enough]
      rfl
  | cons site rest ih =>
      rw [assignShares]
      rw [List.filter_cons] at enough
      by_cases noHosts : site.hosts.isEmpty
      · simp only [noHosts, Bool.not_true, Bool.false_eq_true, if_false] at enough
        rw [if_pos noHosts, List.map_cons, List.sum_cons, ih enough, Nat.zero_add]
      · simp only [noHosts, Bool.not_false, if_true] at enough
        cases shares with
        | nil => cases enough
        | cons share others =>
            rw [if_neg noHosts, List.map_cons, List.sum_cons, List.tail_cons,
              ih (Nat.succ.inj enough), List.map_cons, List.sum_cons]
            rfl

/-- The sites with hosts share out the total. -/
theorem sum_allocate (total : UInt32) {sites : List Site}
    (placeable : ∃ site ∈ sites, site.hosts ≠ []) :
    ((allocate total sites).map Prod.snd).sum = total.toNat := by
  rcases placeable with ⟨site, member, hasHosts⟩
  have eligible : site ∈ sites.filter fun site => !site.hosts.isEmpty :=
    List.mem_filter.mpr ⟨member, by simpa using hasHosts⟩
  have fair := Allocation.apportions_largestRemainder total
    (List.ne_nil_of_mem (List.mem_map_of_mem (f := fun site => site.target.weight) eligible))
  rw [allocate, sum_assignShares, fair.sum_eq]
  rw [Allocation.length_largestRemainder, List.length_map]

theorem sum_allocate_of_unplaceable (total : UInt32) {sites : List Site}
    (unplaceable : ∀ site ∈ sites, site.hosts = []) :
    ((allocate total sites).map Prod.snd).sum = 0 := by
  apply List.sum_eq_zero
  intro wanted member
  rcases List.mem_map.mp member with ⟨share, shareMember, rfl⟩
  exact (allocate_snd shareMember).1 (unplaceable _ (site_mem_of_mem_allocate shareMember))

end Allocation

/--
Whether there is a live host for a scaler: one that a target of the scaler accepts, or any host if
the scaler names no target.
-/
def Placeable (scaler : SpreadScaler) (observed : ObservedState) : Prop :=
  ∃ id host, observed.host? id = some host ∧
    (scaler.spread = [] ∨ ∃ target ∈ scaler.spread, target.accepts host.labels = true)

/-- The instances of a component that an evaluation does not stop. -/
def kept (app : AppName) (id : ComponentId) (component : Component) (scaler : SpreadScaler)
    (observed : ObservedState) : List PlacedInstance :=
  (pool app id observed).filter fun placed =>
    placed.place ∉ (evaluate app id component scaler observed).flatMap RequiredAction.stoppedPlaces

section Evaluation

variable {app : AppName} {id : ComponentId} {component : Component} {scaler : SpreadScaler}
  {observed : ObservedState}

theorem mem_acceptedHosts_iff {target : WeightedTarget} {host : HostId} :
    host ∈ acceptedHosts target observed ↔
      ∃ state, observed.host? host = some state ∧ target.accepts state.labels = true := by
  simp [acceptedHosts, SortedMap.mem_keys_iff, Option.filter_eq_some_iff, ObservedState.host?]

theorem placeable_iff :
    Placeable scaler observed ↔ ∃ site ∈ sitesOf scaler observed, site.hosts ≠ [] := by
  have bySite : (∃ site ∈ sitesOf scaler observed, site.hosts ≠ []) ↔
      ∃ id host, observed.host? id = some host ∧
        ∃ target ∈ targetsOf scaler, target.accepts host.labels = true := by
    constructor
    · rintro ⟨site, member, hasHosts⟩
      rcases List.mem_map.mp member with ⟨target, targetMember, rfl⟩
      rcases List.exists_mem_of_ne_nil _ hasHosts with ⟨id, accepted⟩
      rcases mem_acceptedHosts_iff.mp accepted with ⟨host, found, accepts⟩
      exact ⟨id, host, found, target, targetMember, accepts⟩
    · rintro ⟨id, host, found, target, targetMember, accepts⟩
      refine ⟨_, List.mem_map_of_mem targetMember, ?_⟩
      exact List.ne_nil_of_mem (mem_acceptedHosts_iff.mpr ⟨host, found, accepts⟩)
  rw [bySite, Placeable]
  cases named : scaler.spread with
  | nil =>
      have anyHost : ∀ labels, (WeightedTarget.new "" 1).accepts labels = true := fun _ => rfl
      simp [targetsOf, named, anyHost]
  | cons target rest => simp [targetsOf, named]

theorem mem_stopped_iff {placed : PlacedInstance} :
    placed ∈ stopped app id component scaler observed ↔
      placed ∈ pool app id observed ∧ (isCurrent component placed = false ∨
        placed ∈ (plan app id component scaler observed).unclaimed) := by
  rw [stopped, surplus, List.mem_filter, Bool.or_eq_true, Bool.not_eq_true',
    List.contains_iff_mem]

/-- The actions name the place of an instance of the component exactly if it is stopped. -/
theorem place_mem_evaluate_iff {placed : PlacedInstance} (inPool : placed ∈ pool app id observed) :
    placed.place ∈
        (evaluate app id component scaler observed).flatMap RequiredAction.stoppedPlaces ↔
      placed ∈ stopped app id component scaler observed := by
  rw [evaluate_places_perm.mem_iff, List.mem_map]
  constructor
  · rintro ⟨other, otherStopped, samePlace⟩
    have otherInPool := mem_pool_of_mem_stopped otherStopped
    have same : other = placed :=
      List.inj_on_of_nodup_map (nodup_pool_places app id observed) otherInPool inPool samePlace
    exact same ▸ otherStopped
  · exact fun isStopped => ⟨placed, isStopped, rfl⟩

/-- Claimed and unclaimed are the current instances. -/
theorem claimed_append_unclaimed_plan :
    ((plan app id component scaler observed).claimed ++
        (plan app id component scaler observed).unclaimed).Perm
      (current app id component observed) :=
  Plan.claimed_append_unclaimed_serveAll ((nodup_pool app id observed).filter _)

/-- What is kept is what the targets of the scaler have claimed. -/
theorem kept_perm :
    (kept app id component scaler observed).Perm
      (plan app id component scaler observed).claimed := by
  let plan := plan app id component scaler observed
  have keeps : kept app id component scaler observed =
      (current app id component observed).filter fun placed => placed ∉ plan.unclaimed := by
    rw [kept, current, List.filter_filter]
    apply List.filter_congr
    intro placed inPool
    rw [← Bool.decide_coe (isCurrent component placed), ← Bool.decide_and, decide_eq_decide,
      place_mem_evaluate_iff inPool, mem_stopped_iff, and_iff_right inPool, not_or,
      Bool.not_eq_false, and_comm]
  have nodup : (plan.claimed ++ plan.unclaimed).Nodup :=
    claimed_append_unclaimed_plan.nodup_iff.mpr ((nodup_pool app id observed).filter _)
  have claimedOnly : plan.claimed.filter (fun placed => placed ∉ plan.unclaimed) =
      plan.claimed := by
    apply List.filter_eq_self.mpr
    exact fun placed member => decide_eq_true (List.disjoint_of_nodup_append nodup member)
  have noneUnclaimed : plan.unclaimed.filter (fun placed => placed ∉ plan.unclaimed) = [] := by
    apply List.filter_eq_nil_iff.mpr
    exact fun placed member => by simp [member]
  have parts : ((plan.claimed ++ plan.unclaimed).filter fun placed => placed ∉ plan.unclaimed).Perm
      ((current app id component observed).filter fun placed => placed ∉ plan.unclaimed) :=
    claimed_append_unclaimed_plan.filter _
  rw [keeps]
  rw [List.filter_append, claimedOnly, noneUnclaimed, List.append_nil] at parts
  exact parts.symm

/-- What is claimed and what is started make up what the sites want. -/
theorem length_claimed_add_started_plan :
    (plan app id component scaler observed).claimed.length +
        (plan app id component scaler observed).started =
      ((allocate scaler.instances (sitesOf scaler observed)).map Prod.snd).sum := by
  rw [plan_eq, Plan.length_claimed_add_started_serveAll fun share member => (allocate_snd member).1]
  exact Nat.zero_add _

theorem started_plan_lt : (plan app id component scaler observed).started < UInt32.size := by
  have count : _ + (plan app id component scaler observed).started = _ :=
    length_claimed_add_started_plan
  have bound : scaler.instances.toNat < UInt32.size := UInt32.toNat_lt _
  by_cases placeable : ∃ site ∈ sitesOf scaler observed, site.hosts ≠ []
  · rw [sum_allocate _ placeable] at count
    omega
  · rw [sum_allocate_of_unplaceable _ (by simpa using placeable)] at count
    omega

/-- What is started on a host is few enough to be said in an action, also where targets overlap. -/
theorem toNat_count_plan {host : HostId} {start : Start}
    (found : (plan app id component scaler observed).starts.find? host = some start) :
    start.count.toUInt32.toNat = start.count :=
  Nat.mod_eq_of_lt ((Plan.count_le_started _ found).trans_lt started_plan_lt)

/-- The actions start as many instances as the plan. -/
theorem sum_startCount_evaluate :
    ((evaluate app id component scaler observed).map RequiredAction.startCount).sum =
      (plan app id component scaler observed).started := by
  let plan := plan app id component scaler observed
  have noStops : ((PlacedInstance.stopActions id (surplus component plan
      (pool app id observed))).map RequiredAction.startCount).sum = 0 := by
    apply List.sum_eq_zero
    intro count counted
    rcases List.mem_map.mp counted with ⟨action, member, rfl⟩
    rcases PlacedInstance.of_mem_stopActions member with ⟨_, rfl⟩
    rfl
  have counts : (startActions id component plan).map RequiredAction.startCount =
      plan.starts.values.map Start.count := by
    rw [startActions, List.map_map, SortedMap.values, List.map_map]
    apply List.map_congr_left
    exact fun entry member => toNat_count_plan (SortedMap.mem_entries_iff.mp member)
  rw [evaluate, List.map_append, List.sum_append, noStops, Nat.add_zero, counts]
  rfl

theorem startsFor_plan :
    (plan app id component scaler observed).StartsFor (sitesOf scaler observed) := by
  rw [plan_eq]
  apply Plan.StartsFor.serveAll
  · intro host start found
    cases found
  · exact fun share member => site_mem_of_mem_allocate member

/-- An action that starts instances of a component does so for a site with its host. -/
theorem exists_start_of_mem_evaluate {named : ComponentId} {kind : ComponentKind}
    {imageRef : String} {host : HostId} {selector : Labels} {count : UInt32}
    (member : .startInstances named kind imageRef host selector count ∈
      evaluate app id component scaler observed) :
    0 < count.toNat ∧ ∃ site ∈ sitesOf scaler observed,
      host ∈ site.hosts ∧ selector = site.target.requirements := by
  rcases List.mem_append.mp member with started | stopped
  · rcases List.mem_map.mp started with ⟨⟨other, start⟩, entry, same⟩
    rw [RequiredAction.startInstances.injEq] at same
    rcases same with ⟨_, _, _, rfl, rfl, rfl⟩
    have found := SortedMap.mem_entries_iff.mp entry
    rcases startsFor_plan other start found with ⟨positive, chosen⟩
    exact ⟨(toNat_count_plan found).symm ▸ positive, chosen⟩
  · rcases PlacedInstance.of_mem_stopActions stopped with ⟨_, same⟩
    cases same

theorem nodup_stoppedPlaces :
    ((evaluate app id component scaler observed).flatMap
      RequiredAction.stoppedPlaces).Nodup := by
  apply evaluate_places_perm.nodup_iff.mpr
  exact (nodup_pool_places app id observed).sublist (List.filter_sublist.map _)

/-- A scaler without a host stops all instances of its component. -/
theorem stopped_eq_pool (unplaceable : ¬Placeable scaler observed) :
    stopped app id component scaler observed = pool app id observed := by
  have nothing : (plan app id component scaler observed).claimed = [] := by
    have count : (plan app id component scaler observed).claimed.length + _ = _ :=
      length_claimed_add_started_plan
    rw [sum_allocate_of_unplaceable] at count
    · exact List.eq_nil_of_length_eq_zero (Nat.eq_zero_of_add_eq_zero_right count)
    · simpa [placeable_iff] using unplaceable
  have unclaimed : ((plan app id component scaler observed).claimed ++ _).Perm _ :=
    claimed_append_unclaimed_plan
  rw [nothing, List.nil_append] at unclaimed
  apply List.filter_eq_self.mpr
  intro placed inPool
  cases isCurrent : isCurrent component placed with
  | false => rfl
  | true =>
      have inCurrent := unclaimed.mem_iff.mpr (List.mem_filter.mpr ⟨inPool, isCurrent⟩)
      exact List.contains_iff_mem.mpr inCurrent

end Evaluation

/--
An evaluation keeps and starts as many instances of the image that a component should have as its
scaler asks for, whether or not targets overlap. If no target accepts a live host it starts nothing
and stops every instance. Instances of other images are stopped, each once and on its own host, and
starts happen on hosts with the labels that they are for.
-/
theorem count_conserved (app : AppName) (id : ComponentId) (component : Component)
    (scaler : SpreadScaler) (observed : ObservedState) :
    let actions := evaluate app id component scaler observed
    let stoppedPlaces := actions.flatMap RequiredAction.stoppedPlaces
    (Placeable scaler observed →
      ((kept app id component scaler observed).filter (isCurrent component)).length +
        (actions.map RequiredAction.startCount).sum = scaler.instances.toNat) ∧
    (¬Placeable scaler observed →
      (∀ action ∈ actions, action.kind ≠ .start) ∧
        stoppedPlaces.Perm ((pool app id observed).map PlacedInstance.place)) ∧
    (∀ placed ∈ pool app id observed, isCurrent component placed = false →
      stoppedPlaces.count placed.place = 1) ∧
    ∀ named kind imageRef host selector count,
      .startInstances named kind imageRef host selector count ∈ actions →
        1 ≤ count.toNat ∧
          ∃ state, observed.host? host = some state ∧ state.labels.satisfy selector = true := by
  intro actions stoppedPlaces
  refine ⟨?_, ?_, ?_, ?_⟩
  · intro placeable
    have allCurrent : (kept app id component scaler observed).filter (isCurrent component) =
        kept app id component scaler observed := by
      apply List.filter_eq_self.mpr
      intro placed member
      have claimed := List.mem_append_left (plan app id component scaler observed).unclaimed
        (kept_perm.mem_iff.mp member)
      exact (List.mem_filter.mp (claimed_append_unclaimed_plan.mem_iff.mp claimed)).2
    rw [allCurrent, kept_perm.length_eq, sum_startCount_evaluate, length_claimed_add_started_plan]
    exact sum_allocate _ (placeable_iff.mp placeable)
  · intro unplaceable
    constructor
    · intro action member isStart
      cases action with
      | startInstances named kind imageRef host selector count =>
          rcases exists_start_of_mem_evaluate member with ⟨_, site, siteMember, onSite, _⟩
          exact unplaceable (placeable_iff.mpr ⟨site, siteMember, List.ne_nil_of_mem onSite⟩)
      | _ => cases isStart
    · exact stopped_eq_pool unplaceable ▸ evaluate_places_perm
  · intro placed inPool outdated
    apply List.count_eq_one_of_mem nodup_stoppedPlaces
    exact (place_mem_evaluate_iff inPool).mpr (mem_stopped_iff.mpr ⟨inPool, Or.inl outdated⟩)
  · intro named kind imageRef host selector count member
    rcases exists_start_of_mem_evaluate member with ⟨positive, site, siteMember, onSite, rfl⟩
    rcases List.mem_map.mp siteMember with ⟨target, _, rfl⟩
    exact ⟨positive, mem_acceptedHosts_iff.mp onSite⟩

/--
Of two targets that have a host in common, the first keeps what runs there and the second what runs
elsewhere; both start what they lack, and an instance of an old image gives way.
-/
theorem count_conserved_of_overlap :
    let component : Component := .new "api" .component "registry/api:2"
    let inZone : WeightedTarget := (WeightedTarget.new "zone" 1).require "zone" "a"
    let scaler := ((SpreadScaler.new 5).withTarget inZone).withTarget (.new "any" 1)
    let event (host : String) (sequence : UInt64) (kind : LatticeEventKind) : LatticeEvent :=
      ⟨⟨"prod"⟩, ⟨host⟩, sequence, ⟨sequence.toNat, 0⟩, kind⟩
    let started (host : String) (sequence : UInt64) (image id : String) : LatticeEvent :=
      event host sequence
        (.instanceStarted ⟨"shop-api"⟩ .component image ⟨id⟩ (.forApp ⟨"shop"⟩))
    let observed : ObservedState := .replay ⟨"prod"⟩
      [event "host-a" 1 (.hostStarted (.ofList [("zone", "a")]) none),
        event "host-b" 1 (.hostStarted ∅ none),
        started "host-a" 2 "registry/api:1" "i-1", started "host-a" 3 "registry/api:2" "i-2",
        started "host-a" 4 "registry/api:2" "i-3", started "host-b" 5 "registry/api:2" "i-4"]
    let start (host : String) (selector : Labels) : RequiredAction :=
      .startInstances ⟨"shop-api"⟩ .component "registry/api:2" ⟨host⟩ selector 1
    let actions : List RequiredAction :=
      [start "host-a" inZone.requirements, start "host-b" ∅,
        .stopInstances ⟨"shop-api"⟩ ⟨"host-a"⟩ [⟨"i-1"⟩]]
    evaluate ⟨"shop"⟩ ⟨"shop-api"⟩ component scaler observed = actions ∧
      Placeable scaler observed ∧
      ((kept ⟨"shop"⟩ ⟨"shop-api"⟩ component scaler observed).filter
        (isCurrent component)).length + (actions.map RequiredAction.startCount).sum = 5 := by
  intro component inZone scaler event started observed start actions
  let placed (host id image : String) (sequence : UInt64) : PlacedInstance :=
    ⟨⟨host⟩, ⟨id⟩, ⟨⟨"shop-api"⟩, .component, image, .forApp ⟨"shop"⟩, ⟨sequence.toNat, 0⟩,
      sequence, .running⟩⟩
  have inPool : pool ⟨"shop"⟩ ⟨"shop-api"⟩ observed =
      [placed "host-a" "i-1" "registry/api:1" 2, placed "host-a" "i-2" "registry/api:2" 3,
        placed "host-a" "i-3" "registry/api:2" 4, placed "host-b" "i-4" "registry/api:2" 5] := by
    have sorted : ((observed.managedInstances ⟨"shop"⟩).filter fun placed =>
        placed.record.component == ⟨"shop-api"⟩).Pairwise
          fun first second => first.isOlder second = true := by decide +kernel
    rw [pool, PlacedInstance.oldestFirst, List.mergeSort_of_pairwise sorted]
    decide +kernel
  have sites : sitesOf scaler observed =
      [⟨inZone, [⟨"host-a"⟩]⟩, ⟨.new "any" 1, [⟨"host-a"⟩, ⟨"host-b"⟩]⟩] := by decide +kernel
  have shared : Allocation.largestRemainder 5 [1, 1] = [3, 2] := by cbv
  have allocated : allocate scaler.instances (sitesOf scaler observed) =
      [(⟨inZone, [⟨"host-a"⟩]⟩, 3), (⟨.new "any" 1, [⟨"host-a"⟩, ⟨"host-b"⟩]⟩, 2)] := by
    rw [sites]
    exact congrArg (assignShares _) shared
  have asked : evaluate ⟨"shop"⟩ ⟨"shop-api"⟩ component scaler observed = actions := by
    rw [evaluate, plan, allocated, inPool]
    decide +kernel
  have placeable : Placeable scaler observed := by
    rw [placeable_iff, sites]
    exact ⟨_, List.mem_cons_self, by decide⟩
  have conserved := (count_conserved ⟨"shop"⟩ ⟨"shop-api"⟩ component scaler observed).1 placeable
  rw [asked] at conserved
  exact ⟨asked, placeable, conserved⟩

end Spread

end Reconciler
