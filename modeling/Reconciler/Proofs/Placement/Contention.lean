import Mathlib.Data.List.Forall2
import Reconciler.Proofs.Observed.Population
import Reconciler.Proofs.Placement.Standstill

/-!
# Contending for a host

Of two targets that want something, let the earlier one accept a host that the later one does not,
and let there be a host that both accept. Everything can then be in place and still be moved: if
each target has its share on the first of these hosts, or else on the second one, and the youngest
instances are those on the second one, the earlier target claims one of these, and the later one
goes short.
-/

namespace Reconciler.Spread

section Sharing

variable {test weaker : Site → Bool} {shares : List (Site × Nat)}

theorem wantedBy_le_of_imp (implies : ∀ site, test site = true → weaker site = true) :
    wantedBy test shares ≤ wantedBy weaker shares := by
  induction shares with
  | nil => exact le_rfl
  | cons share rest ih =>
      rw [wantedBy_cons, wantedBy_cons]
      by_cases passes : test share.1 = true
      · rw [if_pos passes, if_pos (implies _ passes)]
        exact Nat.add_le_add_left ih _
      · rw [if_neg passes, Nat.zero_add]
        exact le_trans ih (Nat.le_add_left _ _)

theorem le_wantedBy {share : Site × Nat} (member : share ∈ shares)
    (passes : test share.1 = true) : share.2 ≤ wantedBy test shares := by
  apply List.single_le_sum (fun _ _ => Nat.zero_le _)
  exact List.mem_map_of_mem (List.mem_filter.mpr ⟨member, passes⟩)

/-- If the sites with a host have no more than what runs there, they have nothing from elsewhere. -/
theorem host_eq_of_assigned {assigned : List (Site × List PlacedInstance)}
    {instances : List PlacedInstance} {host : HostId} (nodup : instances.Nodup)
    (fits : ∀ entry ∈ assigned, ∀ placed ∈ entry.2, placed.host ∈ entry.1.hosts)
    (perm : (assigned.flatMap Prod.snd).Perm instances)
    (scarce : wantedBy (fun site => host ∈ site.hosts) (sizes assigned) ≤
      (instances.map PlacedInstance.host).count host)
    {entry : Site × List PlacedInstance} (member : entry ∈ assigned)
    (accepts : host ∈ entry.1.hosts)
    {placed : PlacedInstance} (isAssigned : placed ∈ entry.2) : placed.host = host := by
  let there := instances.filter fun placed => placed.host = host
  let taken := (assigned.filter fun entry => decide (host ∈ entry.1.hosts)).flatMap Prod.snd
  have covered : there ⊆ taken := by
    intro other inThere
    rcases List.mem_filter.mp inThere with ⟨inInstances, onHost⟩
    rcases List.mem_flatMap.mp (perm.mem_iff.mpr inInstances) with ⟨claim, claims, isClaimed⟩
    have accepted := of_decide_eq_true onHost ▸ fits claim claims other isClaimed
    exact List.mem_flatMap.mpr
      ⟨claim, List.mem_filter.mpr ⟨claims, decide_eq_true accepted⟩, isClaimed⟩
  have few : taken.length ≤ there.length := by
    rw [length_assigned fun site => host ∈ site.hosts]
    refine le_trans scarce (le_of_eq ?_)
    rw [List.count, List.countP_map, List.countP_eq_length_filter]
    rfl
  have same := (List.subperm_of_subset (nodup.filter _) covered).perm_of_length_le few
  have isTaken : placed ∈ taken := List.mem_flatMap.mpr
    ⟨entry, List.mem_filter.mpr ⟨member, decide_eq_true accepts⟩, isAssigned⟩
  exact of_decide_eq_true (List.mem_filter.mp (same.mem_iff.mpr isTaken)).2

end Sharing

section Homes

variable {own common : HostId} {shares : List (Site × Nat)}

/-- Where a site has its share: on the first of two hosts, or else on the second one. -/
def Site.home (own common : HostId) (site : Site) : HostId :=
  if own ∈ site.hosts then own
  else if common ∈ site.hosts then common else site.hosts.headD common

/-- The hosts of the instances if each site has its share at its home. -/
def homes (own common : HostId) (shares : List (Site × Nat)) : List HostId :=
  shares.flatMap fun share => List.replicate share.2 (share.1.home own common)

theorem count_homes (host : HostId) :
    (homes own common shares).count host =
      wantedBy (fun site => site.home own common = host) shares := by
  induction shares with
  | nil => rfl
  | cons share rest ih =>
      rw [homes, List.flatMap_cons, List.count_append, ← homes, ih, wantedBy_cons,
        List.count_replicate]
      simp only [beq_iff_eq, decide_eq_true_eq]

theorem home_mem {site : Site} (nonempty : site.hosts ≠ []) :
    site.home own common ∈ site.hosts := by
  rw [Site.home]
  split
  · assumption
  · split
    · assumption
    · rw [List.headD_eq_head?_getD, List.head?_eq_some_head nonempty]
      exact List.head_mem nonempty

theorem home_eq_own_iff {site : Site} (different : own ≠ common) :
    site.home own common = own ↔ own ∈ site.hosts := by
  constructor
  · intro isOwn
    by_cases none : site.hosts = []
    · rw [Site.home, none] at isOwn
      exact absurd isOwn.symm different
    · exact isOwn ▸ home_mem none
  · intro accepts
    rw [Site.home, if_pos accepts]

theorem sharedOut_of_map_eq_homes {instances : List PlacedInstance}
    (placeable : ∀ share ∈ shares, share.1.hosts = [] → share.2 = 0)
    (hosts : instances.map PlacedInstance.host = homes own common shares) :
    SharedOut shares instances := by
  induction shares generalizing instances with
  | nil =>
      obtain rfl := List.map_eq_nil_iff.mp hosts
      exact ⟨[], rfl, fun _ member => absurd member List.not_mem_nil, .nil⟩
  | cons share rest ih =>
      rcases share with ⟨site, wanted⟩
      rcases List.forall_mem_cons.mp placeable with ⟨here, inRest⟩
      rw [homes, List.flatMap_cons, List.map_eq_append_iff] at hosts
      rcases hosts with ⟨mine, others, rfl, atHome, elsewhere⟩
      rcases ih inRest elsewhere with ⟨assigned, rfl, fits, perm⟩
      have length : mine.length = wanted := by
        rw [← List.length_map PlacedInstance.host, atHome, List.length_replicate]
      refine ⟨(site, mine) :: assigned, ?_, ?_, ?_⟩
      · rw [← length]
        rfl
      · refine List.forall_mem_cons.mpr ⟨fun placed member => ?_, fits⟩
        have isHome : placed.host ∈ List.replicate wanted (site.home own common) :=
          atHome ▸ List.mem_map_of_mem member
        rw [List.eq_of_mem_replicate isHome]
        refine home_mem fun noHosts => ?_
        rw [← length] at here
        exact List.ne_nil_of_mem member (List.eq_nil_of_length_eq_zero (here noHosts))
      · exact perm.append_left mine

/-- Instances on the homes of sites are shared out. -/
theorem sharedOut_of_homes {instances : List PlacedInstance}
    (placeable : ∀ share ∈ shares, share.1.hosts = [] → share.2 = 0)
    (hosts : (instances.map PlacedInstance.host).Perm (homes own common shares)) :
    SharedOut shares instances := by
  have paired : List.Forall₂ (fun host placed => host = PlacedInstance.host placed)
      (instances.map PlacedInstance.host) instances :=
    List.forall₂_map_left_iff.mpr (List.forall₂_same.mpr fun _ _ => rfl)
  rcases List.perm_comp_forall₂ hosts.symm paired with ⟨sorted, bySite, perm⟩
  have inOrder : homes own common shares = sorted.map PlacedInstance.host := by
    rw [← List.forall₂_eq_eq_eq, List.forall₂_map_right_iff]
    exact bySite
  rcases sharedOut_of_map_eq_homes placeable inOrder.symm with ⟨assigned, wanted, fits, all⟩
  exact ⟨assigned, wanted, fits, all.trans perm⟩

theorem length_homes : (homes own common shares).length = (shares.map Prod.snd).sum := by
  rw [homes, List.length_flatMap]
  simp only [List.length_replicate]

/-- Sites that are not graded have two contenders among them. -/
theorem exists_contenders (notGraded : ¬Graded shares) :
    ∃ before first rest own common, shares = before ++ first :: rest ∧ 0 < first.2 ∧
      own ∈ first.1.hosts ∧ common ∈ first.1.hosts ∧
        ∃ share ∈ rest, 0 < share.2 ∧ common ∈ share.1.hosts ∧ own ∉ share.1.hosts := by
  induction shares with
  | nil => exact absurd List.Pairwise.nil notGraded
  | cons head rest ih =>
      by_cases restGraded : Graded rest
      · have headNot : ¬∀ share ∈ rest, 0 < head.2 → 0 < share.2 →
            head.1.hosts.Disjoint share.1.hosts ∨ head.1.hosts ⊆ share.1.hosts :=
          fun headGraded => notGraded (List.pairwise_cons.mpr ⟨headGraded, restGraded⟩)
        push Not at headNot
        rcases headNot with ⟨share, member, headWants, wants, notApart, notWithin⟩
        simp only [List.Disjoint, not_forall, not_false_eq_true] at notApart
        rcases notApart with ⟨common, inHead, inShare, _⟩
        rcases Set.not_subset.mp notWithin with ⟨own, ownInHead, notInShare⟩
        exact ⟨[], head, rest, own, common, rfl, headWants, ownInHead, inHead, share, member, wants,
          inShare, notInShare⟩
      · rcases ih restGraded with ⟨before, first, after, own, common, rfl, contended⟩
        exact ⟨head :: before, first, after, own, common, rfl, contended⟩

end Homes

namespace Plan

variable {plan : Plan} {before rest : List (Site × Nat)} {first : Site × Nat}
  {own common : HostId}

theorem claims_append (before after : List (Site × Nat)) :
    plan.claims (before ++ after) = plan.claims before ++ (plan.serveAll before).claims after := by
  induction before generalizing plan with
  | nil => rfl
  | cons share rest ih =>
      rw [List.cons_append, claims_cons, claims_cons, ih, List.cons_append, serveAll_cons]

/-- When the turn of the first of two contenders comes, not all is claimed on the common host. -/
theorem exists_unclaimed_on_common (nodup : plan.unclaimed.Nodup) (different : own ≠ common)
    (hosts : (plan.unclaimed.map PlacedInstance.host).Perm (homes own common (before ++ rest)))
    (contended : ∃ share ∈ rest, 0 < share.2 ∧ common ∈ share.1.hosts ∧ own ∉ share.1.hosts)
    (sizesBefore : sizes (plan.claims before) = before)
    (ownOnly : ∀ claim ∈ plan.claims before, own ∈ claim.1.hosts →
      ∀ placed ∈ claim.2, placed.host = own) :
    ∃ placed ∈ (plan.serveAll before).unclaimed, placed.host = common := by
  by_contra noneLeft
  let onCommon := plan.unclaimed.filter fun placed => placed.host = common
  let settles : Site → Bool := fun site => common ∈ site.hosts ∧ own ∉ site.hosts
  let taken := ((plan.claims before).filter fun claim => settles claim.1).flatMap Prod.snd
  have covered : onCommon ⊆ taken := by
    intro placed inCommon
    rcases List.mem_filter.mp inCommon with ⟨unclaimed, onHost⟩
    have onHost := of_decide_eq_true onHost
    have parts : ((plan.serveAll before).claimed ++ _).Perm _ :=
      claimed_append_unclaimed_serveAll nodup
    rw [claimed_serveAll, List.append_assoc, List.perm_append_left_iff] at parts
    rcases List.mem_append.mp (parts.mem_iff.mpr unclaimed) with claimed | left
    · rcases List.mem_flatMap.mp claimed with ⟨claim, claims, isClaimed⟩
      have accepts : common ∈ claim.1.hosts :=
        onHost ▸ host_mem_of_mem_claims claims isClaimed
      have notOwn : own ∉ claim.1.hosts := fun acceptsOwn =>
        different ((ownOnly claim claims acceptsOwn placed isClaimed).symm.trans onHost)
      exact List.mem_flatMap.mpr
        ⟨claim, List.mem_filter.mpr ⟨claims, decide_eq_true ⟨accepts, notOwn⟩⟩, isClaimed⟩
    · exact absurd ⟨placed, left, onHost⟩ noneLeft
  have few : onCommon.length ≤ wantedBy settles before := by
    rw [← sizesBefore, ← length_assigned]
    exact (List.subperm_of_subset (nodup.filter _) covered).length_le
  -- The other contender has its share on the common host, too.
  rcases contended with ⟨share, member, wants, accepts, notOwn⟩
  have many : share.2 ≤ wantedBy settles rest :=
    le_wantedBy member (decide_eq_true ⟨accepts, notOwn⟩)
  have atHome : wantedBy settles (before ++ rest) ≤ onCommon.length := by
    have count : onCommon.length = (plan.unclaimed.map PlacedInstance.host).count common := by
      rw [List.count, List.countP_map, List.countP_eq_length_filter]
      rfl
    rw [count, hosts.count_eq, count_homes]
    refine wantedBy_le_of_imp fun site settled => ?_
    rcases of_decide_eq_true settled with ⟨acceptsCommon, acceptsNotOwn⟩
    simp [Site.home, acceptsCommon, acceptsNotOwn]
  rw [wantedBy_append] at atHome
  omega

/-- One of two contenders goes short, or something is left over, if the youngest are in between. -/
theorem not_settled_of_contended
    (ordered : plan.unclaimed.Pairwise PlacedInstance.OlderThan) (nodup : plan.unclaimed.Nodup)
    (different : own ≠ common)
    (hosts : (plan.unclaimed.map PlacedInstance.host).Perm
      (homes own common (before ++ first :: rest)))
    (young : ∀ older ∈ plan.unclaimed, older.host = own → ∀ newer ∈ plan.unclaimed,
      newer.host = common → older.OlderThan newer)
    (wants : 0 < first.2) (acceptsOwn : own ∈ first.1.hosts)
    (acceptsCommon : common ∈ first.1.hosts)
    (contended : ∃ share ∈ rest, 0 < share.2 ∧ common ∈ share.1.hosts ∧ own ∉ share.1.hosts)
    (noneLeft : (plan.serveAll (before ++ first :: rest)).unclaimed = []) :
    sizes (plan.claims (before ++ first :: rest)) ≠ before ++ first :: rest := by
  intro enough
  have fits : ∀ claim ∈ plan.claims (before ++ first :: rest), ∀ placed ∈ claim.2,
      placed.host ∈ claim.1.hosts := fun claim member placed => host_mem_of_mem_claims member
  have perm : ((plan.serveAll (before ++ first :: rest)).claimed ++ _).Perm _ :=
    claimed_append_unclaimed_serveAll nodup
  rw [noneLeft, List.append_nil, claimed_serveAll, List.perm_append_left_iff] at perm
  -- Whoever accepts its own host has claimed nothing elsewhere, as it would be left over there.
  have ownOnly : ∀ claim ∈ plan.claims (before ++ first :: rest), own ∈ claim.1.hosts →
      ∀ placed ∈ claim.2, placed.host = own := by
    intro claim member accepts placed
    refine host_eq_of_assigned nodup fits perm (le_of_eq ?_) member accepts
    rw [enough, hosts.count_eq, count_homes]
    simp only [home_eq_own_iff different]
  rw [claims_append, claims_cons] at enough ownOnly
  have sizesBefore : sizes (plan.claims before) = before := by
    rw [sizes, List.map_append] at enough
    refine (List.append_inj enough ?_).1
    have served : (plan.claims before).map Prod.fst = before.map Prod.fst := claims_fst
    simpa using congrArg List.length served
  have sizeFirst : (first.1.newest first.2 (plan.serveAll before).unclaimed).length = first.2 := by
    rw [sizes, List.map_append, ← sizes, sizesBefore, List.append_cancel_left_eq, List.map_cons,
      List.cons.injEq] at enough
    exact congrArg Prod.snd enough.1
  rcases exists_unclaimed_on_common nodup different hosts
    (contended.imp fun share => And.imp_left (List.mem_cons_of_mem first)) sizesBefore
    (fun claim member => ownOnly claim (List.mem_append_left _ member)) with
    ⟨contested, isUnclaimed, onCommon⟩
  rcases List.exists_mem_of_length_pos (sizeFirst ▸ wants) with ⟨taken, isTaken⟩
  have onOwn : ∀ placed ∈ first.1.newest first.2 (plan.serveAll before).unclaimed,
      placed.host = own :=
    ownOnly (first.1, _) (List.mem_append_right _ List.mem_cons_self) acceptsOwn
  -- The first contender passes over an instance that is younger than one that it takes.
  have isLeft : contested ∈ ((plan.serveAll before).serve first.1 first.2).unclaimed := by
    rw [serve_unclaimed, List.mem_filter]
    refine ⟨isUnclaimed, ?_⟩
    have notTaken : contested ∉ first.1.newest first.2 (plan.serveAll before).unclaimed :=
      fun member => different ((onOwn contested member).symm.trans onCommon)
    simpa using notTaken
  have sublist := plan.unclaimed_serveAll_sublist before
  have passedOver : contested.OlderThan taken :=
    olderThan_newest (ordered.sublist sublist) isLeft (onCommon ▸ acceptsCommon) isTaken
  have younger : taken.OlderThan contested :=
    young taken (sublist.subset (Site.mem_of_mem_newest isTaken).1) (onOwn taken isTaken)
      contested (sublist.subset isUnclaimed) onCommon
  exact Std.OrientedCmp.not_lt_of_lt passedOver younger

end Plan

section Evaluation

variable {app : AppName} {id : ComponentId} {component : Component} {scaler : SpreadScaler}
  {observed : ObservedState}

/-- The instances of a component, as young as they have to be to be claimed by a contender first. -/
def contendedPopulation (app : AppName) (id : ComponentId) (component : Component)
    (common : HostId) : Population where
  component := id
  componentKind := component.kind
  imageRef := component.imageRef
  annotations := .forApp app
  startedAt host := if host = common then ⟨1, 0⟩ else ⟨0, 0⟩

/-- Where sites contend, a component can be in place on the same hosts and still be moved. -/
theorem exists_inPlace_of_not_graded
    (notGraded : ¬Graded (allocate scaler.instances (sitesOf scaler observed))) :
    ∃ state : ObservedState, state.Reachable ∧
      (∀ host, (state.host? host).map HostState.labels =
        (observed.host? host).map HostState.labels) ∧
      InPlace app id component scaler state ∧
      evaluate app id component scaler state ≠ [] := by
  rcases exists_contenders notGraded with
    ⟨before, first, rest, own, common, parts, wants, acceptsOwn, acceptsCommon, contended⟩
  have different : own ≠ common := by
    rintro rfl
    rcases contended with ⟨_, _, _, accepts, notOwn⟩
    exact notOwn accepts
  let shares := allocate scaler.instances (sitesOf scaler observed)
  have placeable : ∀ share ∈ shares, share.1.hosts = [] → share.2 = 0 :=
    fun share member => (allocate_snd member).1
  let labels := observed.hosts.mapValues fun _ host => host.labels
  have known : ∀ host ∈ homes own common shares, labels.contains host = true := by
    intro host member
    rcases List.mem_flatMap.mp member with ⟨share, shareMember, atHome⟩
    rcases List.mem_replicate.mp atHome with ⟨wantsSome, rfl⟩
    have accepted : share.1.home own common ∈ share.1.hosts :=
      home_mem fun none => wantsSome (placeable share shareMember none)
    rcases List.mem_map.mp (site_mem_of_mem_allocate shareMember) with ⟨target, _, same⟩
    rw [← same] at accepted
    rcases mem_acceptedHosts_iff.mp accepted with ⟨live, found, _⟩
    rw [SortedMap.contains_eq_isSome, SortedMap.find?_mapValues, Option.isSome_map, ← same]
    exact Option.isSome_of_eq_some found
  have few : (homes own common shares).length < UInt32.size := by
    have hasHosts : ∃ site ∈ sitesOf scaler observed, site.hosts ≠ [] := by
      have isShare : first ∈ allocate scaler.instances (sitesOf scaler observed) :=
        parts ▸ List.mem_append_right _ List.mem_cons_self
      exact ⟨first.1, site_mem_of_mem_allocate isShare, List.ne_nil_of_mem acceptsOwn⟩
    rw [length_homes, sum_allocate _ hasHosts]
    exact UInt32.toNat_lt _
  rcases ObservedState.exists_reachable_of_population observed.lattice labels
    (contendedPopulation app id component common) known few with
    ⟨state, reachable, sameLabels, hosts, records⟩
  have labelled : ∀ host, (state.host? host).map HostState.labels =
      (observed.host? host).map HostState.labels := by
    intro host
    rw [sameLabels, SortedMap.find?_mapValues]
    rfl
  have allManaged : pool app id state = PlacedInstance.oldestFirst state.placedInstances := by
    rw [pool, ObservedState.managedInstances, List.filter_filter, List.filter_eq_self.mpr]
    intro placed member
    rcases records placed member with ⟨ofComponent, _, annotations, _⟩
    simp only [ofComponent, InstanceRecord.isManagedBy, InstanceRecord.managedBy, annotations,
      contendedPopulation, Labels.forApp, SortedMap.find?_insert, if_true, beq_self_eq_true,
      Bool.and_self]
  have allCurrent : ∀ placed ∈ pool app id state, isCurrent component placed = true := by
    intro placed member
    rw [allManaged, PlacedInstance.mem_oldestFirst] at member
    exact beq_iff_eq.mpr (records placed member).2.1
  have poolHosts :
      ((pool app id state).map PlacedInstance.host).Perm (homes own common shares) := by
    rw [allManaged]
    exact ((PlacedInstance.oldestFirst_perm _).map _).trans hosts
  have sameSites : allocate scaler.instances (sitesOf scaler state) = shares := by
    rw [sitesOf_congr labelled]
  refine ⟨state, reachable, labelled, ⟨allCurrent, ?_⟩, ?_⟩
  · rw [sameSites]
    exact sharedOut_of_homes placeable poolHosts
  · intro nothing
    rcases evaluate_eq_nil_iff.mp nothing with ⟨_, noneLeft, noStarts⟩
    have current : current app id component state = pool app id state :=
      List.filter_eq_self.mpr allCurrent
    rw [plan_eq, current, sameSites] at noneLeft noStarts
    have enough := Plan.claims_of_started_eq placeable (started_eq_zero_of_starts noStarts)
    have ordered : (pool app id state).Pairwise PlacedInstance.OlderThan := by
      rw [allManaged]
      exact PlacedInstance.pairwise_oldestFirst state.nodup_places
    have young : ∀ older ∈ pool app id state, older.host = own → ∀ newer ∈ pool app id state,
        newer.host = common → older.OlderThan newer := by
      intro older olderMember onOwn newer newerMember onCommon
      rw [allManaged, PlacedInstance.mem_oldestFirst] at olderMember newerMember
      apply PlacedInstance.olderThan_of_startedAt
      rw [(records older olderMember).2.2.2, (records newer newerMember).2.2.2, onOwn, onCommon]
      simp only [contendedPopulation, if_neg different, if_true]
      decide
    simp only [shares, parts] at enough noneLeft poolHosts
    exact Plan.not_settled_of_contended ordered (nodup_pool app id state) different poolHosts young
      wants acceptsOwn acceptsCommon contended noneLeft enough

end Evaluation

/--
Whatever is left alone is in place. If of any two targets with a share the hosts of the one declared
earlier are apart from those of the later one or all among them, a component in place is left alone.
If there are two targets of which this is not true, there is a history of the same hosts after which
the component is in place and is not left alone.
-/
theorem left_alone_where_graded (app : AppName) (id : ComponentId) (component : Component)
    (scaler : SpreadScaler) (observed : ObservedState) :
    let graded := Graded (allocate scaler.instances (sitesOf scaler observed))
    (evaluate app id component scaler observed = [] → InPlace app id component scaler observed) ∧
      (graded → InPlace app id component scaler observed →
        evaluate app id component scaler observed = []) ∧
      (¬graded → ∃ state : ObservedState, state.Reachable ∧
        (∀ host, (state.host? host).map HostState.labels =
          (observed.host? host).map HostState.labels) ∧
        InPlace app id component scaler state ∧ evaluate app id component scaler state ≠ []) :=
  ⟨inPlace_of_evaluate, evaluate_of_inPlace, exists_inPlace_of_not_graded⟩

/-- A zone that comes before the whole lattice leaves to it what it needs itself. -/
theorem left_alone_where_graded_of_zone :
    let inZone : WeightedTarget := (WeightedTarget.new "zone" 1).require "zone" "a"
    let scaler := ((SpreadScaler.new 2).withTarget inZone).withTarget (.new "any" 1)
    let component : Component := .new "api" .component "registry/api:1"
    let event (host : String) (sequence : UInt64) (kind : LatticeEventKind) : LatticeEvent :=
      ⟨⟨"prod"⟩, ⟨host⟩, sequence, ⟨sequence.toNat, 0⟩, kind⟩
    let started (host : String) (sequence : UInt64) (id : String) : LatticeEvent :=
      event host sequence (.instanceStarted ⟨"shop-api"⟩ .component "registry/api:1" ⟨id⟩
        (.forApp ⟨"shop"⟩))
    let observed : ObservedState := .replay ⟨"prod"⟩
      [event "host-a" 1 (.hostStarted ∅ none),
        event "host-b" 1 (.hostStarted (.ofList [("zone", "a")]) none), started "host-a" 2 "i-1",
        started "host-b" 3 "i-2"]
    Graded (allocate scaler.instances (sitesOf scaler observed)) ∧
      InPlace ⟨"shop"⟩ ⟨"shop-api"⟩ component scaler observed ∧
      evaluate ⟨"shop"⟩ ⟨"shop-api"⟩ component scaler observed = [] := by
  intro inZone scaler component event started observed
  let placed (host id : String) (sequence : UInt64) : PlacedInstance :=
    ⟨⟨host⟩, ⟨id⟩, ⟨⟨"shop-api"⟩, .component, "registry/api:1", .forApp ⟨"shop"⟩,
      ⟨sequence.toNat, 0⟩, sequence, .running⟩⟩
  have inPool : (pool ⟨"shop"⟩ ⟨"shop-api"⟩ observed).Perm
      [placed "host-a" "i-1" 2, placed "host-b" "i-2" 3] :=
    (PlacedInstance.oldestFirst_perm _).trans (List.Perm.of_eq (by decide +kernel))
  have sites : sitesOf scaler observed =
      [⟨inZone, [⟨"host-b"⟩]⟩, ⟨.new "any" 1, [⟨"host-a"⟩, ⟨"host-b"⟩]⟩] := by decide +kernel
  have shared : Allocation.largestRemainder 2 [1, 1] = [1, 1] := by cbv
  have allocated : allocate scaler.instances (sitesOf scaler observed) =
      [(⟨inZone, [⟨"host-b"⟩]⟩, 1), (⟨.new "any" 1, [⟨"host-a"⟩, ⟨"host-b"⟩]⟩, 1)] := by
    rw [sites]
    exact congrArg (assignShares _) shared
  have graded : Graded (allocate scaler.instances (sitesOf scaler observed)) := by
    rw [allocated]
    exact List.pairwise_pair.mpr fun _ _ => Or.inr (by decide)
  have inPlace : InPlace ⟨"shop"⟩ ⟨"shop-api"⟩ component scaler observed := by
    constructor
    · intro running member
      rcases List.mem_pair.mp (inPool.mem_iff.mp member) with rfl | rfl <;> rfl
    · rw [allocated]
      refine ⟨[(⟨inZone, [⟨"host-b"⟩]⟩, [placed "host-b" "i-2" 3]),
        (⟨.new "any" 1, [⟨"host-a"⟩, ⟨"host-b"⟩]⟩, [placed "host-a" "i-1" 2])], rfl, ?_, ?_⟩
      · simp [placed]
      · exact (List.Perm.swap _ _ []).trans inPool.symm
  exact ⟨graded, inPlace,
    (left_alone_where_graded ⟨"shop"⟩ ⟨"shop-api"⟩ component scaler observed).2.1 graded inPlace⟩

/--
The whole lattice that comes before a zone claims the younger instance, which runs in the zone; so
another one is started there, and the one on the other host is stopped.
-/
theorem moved_though_in_place :
    let inZone : WeightedTarget := (WeightedTarget.new "zone" 1).require "zone" "a"
    let scaler := ((SpreadScaler.new 2).withTarget (.new "any" 1)).withTarget inZone
    let component : Component := .new "api" .component "registry/api:1"
    let event (host : String) (sequence : UInt64) (kind : LatticeEventKind) : LatticeEvent :=
      ⟨⟨"prod"⟩, ⟨host⟩, sequence, ⟨sequence.toNat, 0⟩, kind⟩
    let started (host : String) (sequence : UInt64) (id : String) : LatticeEvent :=
      event host sequence (.instanceStarted ⟨"shop-api"⟩ .component "registry/api:1" ⟨id⟩
        (.forApp ⟨"shop"⟩))
    let observed : ObservedState := .replay ⟨"prod"⟩
      [event "host-a" 1 (.hostStarted ∅ none),
        event "host-b" 1 (.hostStarted (.ofList [("zone", "a")]) none), started "host-a" 2 "i-1",
        started "host-b" 3 "i-2"]
    observed.Reachable ∧ InPlace ⟨"shop"⟩ ⟨"shop-api"⟩ component scaler observed ∧
      evaluate ⟨"shop"⟩ ⟨"shop-api"⟩ component scaler observed =
        [.startInstances ⟨"shop-api"⟩ .component "registry/api:1" ⟨"host-b"⟩ inZone.requirements 1,
          .stopInstances ⟨"shop-api"⟩ ⟨"host-a"⟩ [⟨"i-1"⟩]] := by
  intro inZone scaler component event started observed
  let placed (host id : String) (sequence : UInt64) : PlacedInstance :=
    ⟨⟨host⟩, ⟨id⟩, ⟨⟨"shop-api"⟩, .component, "registry/api:1", .forApp ⟨"shop"⟩,
      ⟨sequence.toNat, 0⟩, sequence, .running⟩⟩
  have inPool : pool ⟨"shop"⟩ ⟨"shop-api"⟩ observed =
      [placed "host-a" "i-1" 2, placed "host-b" "i-2" 3] := by
    have sorted : ((observed.managedInstances ⟨"shop"⟩).filter fun placed =>
        placed.record.component == ⟨"shop-api"⟩).Pairwise
          fun first second => first.isOlder second = true := by decide +kernel
    rw [pool, PlacedInstance.oldestFirst, List.mergeSort_of_pairwise sorted]
    decide +kernel
  have sites : sitesOf scaler observed =
      [⟨.new "any" 1, [⟨"host-a"⟩, ⟨"host-b"⟩]⟩, ⟨inZone, [⟨"host-b"⟩]⟩] := by decide +kernel
  have shared : Allocation.largestRemainder 2 [1, 1] = [1, 1] := by cbv
  have allocated : allocate scaler.instances (sitesOf scaler observed) =
      [(⟨.new "any" 1, [⟨"host-a"⟩, ⟨"host-b"⟩]⟩, 1), (⟨inZone, [⟨"host-b"⟩]⟩, 1)] := by
    rw [sites]
    exact congrArg (assignShares _) shared
  refine ⟨(ObservedState.Reachable.empty ⟨"prod"⟩).afterAll _, ⟨?_, ?_⟩, ?_⟩
  · rw [inPool]
    decide +kernel
  · rw [allocated, inPool]
    refine ⟨[(⟨.new "any" 1, [⟨"host-a"⟩, ⟨"host-b"⟩]⟩, [placed "host-a" "i-1" 2]),
      (⟨inZone, [⟨"host-b"⟩]⟩, [placed "host-b" "i-2" 3])], rfl, ?_, .refl _⟩
    simp [placed]
  · rw [evaluate, plan, allocated, inPool]
    decide +kernel

end Reconciler.Spread
