import Mathlib.Algebra.BigOperators.Group.List.Basic
import Mathlib.Data.List.Nodup
import Mathlib.Data.List.Pairwise
import Reconciler.Placement.Spread
import Reconciler.Proofs.SortedMap

/-!
# Plans

What serving sites makes of a plan. A site takes from the unclaimed instances the newest ones on its
hosts, and starts on them what it lacks; `Plan.serve_unclaimed` and `Plan.startsAt_serve` say so,
and later arguments do not go back to the single starts. Sites without a common host do not disturb
each other, so that each of them gets what it would get alone.
-/

namespace Reconciler.Spread

namespace Site

/-- Whether an instance runs on a host of a site. -/
def holds (site : Site) (placed : PlacedInstance) : Bool :=
  site.hosts.contains placed.host

/-- The newest of some instances on the hosts of a site, up to a number; the oldest comes first. -/
def newest (site : Site) (wanted : Nat) (instances : List PlacedInstance) : List PlacedInstance :=
  let available := instances.filter site.holds
  available.drop (available.length - wanted)

variable {site : Site} {wanted : Nat} {instances : List PlacedInstance} {placed : PlacedInstance}

@[simp]
theorem holds_iff : site.holds placed = true ↔ placed.host ∈ site.hosts :=
  List.contains_iff_mem

theorem newest_sublist (site : Site) (wanted : Nat) (instances : List PlacedInstance) :
    (site.newest wanted instances).Sublist (instances.filter site.holds) :=
  List.drop_sublist _ _

theorem mem_of_mem_newest (member : placed ∈ site.newest wanted instances) :
    placed ∈ instances ∧ placed.host ∈ site.hosts := by
  have kept := List.mem_filter.mp ((newest_sublist site wanted instances).subset member)
  exact ⟨kept.1, holds_iff.mp kept.2⟩

theorem length_newest (site : Site) (wanted : Nat) (instances : List PlacedInstance) :
    (site.newest wanted instances).length = min wanted (instances.filter site.holds).length := by
  rw [newest, List.length_drop]
  omega

theorem length_newest_le (site : Site) (wanted : Nat) (instances : List PlacedInstance) :
    (site.newest wanted instances).length ≤ wanted := by
  rw [length_newest]
  exact Nat.min_le_left _ _

theorem newest_of_length_le (enough : (instances.filter site.holds).length ≤ wanted) :
    site.newest wanted instances = instances.filter site.holds := by
  rw [newest, Nat.sub_eq_zero_of_le enough, List.drop_zero]

end Site

namespace Plan

/-- The number of instances that are started on a host. -/
def startsOn (plan : Plan) (host : HostId) : Nat :=
  ((plan.starts.find? host).map Start.count).getD 0

/-- The number of instances that are started on some hosts. -/
def startsAt (plan : Plan) (hosts : List HostId) : Nat :=
  (hosts.map plan.startsOn).sum

section Starts

variable (plan : Plan) (site : Site) (missing : Nat)

theorem leastLoaded?_mem {hosts : List HostId} {host : HostId}
    (found : plan.leastLoaded? hosts = some host) : host ∈ hosts := by
  induction hosts generalizing host with
  | nil => cases found
  | cons head rest ih =>
      rw [leastLoaded?] at found
      split at found
      · exact Option.some.inj found ▸ List.mem_cons_self
      · rename_i other least
        split at found
        · exact List.mem_cons_of_mem _ (Option.some.inj found ▸ ih least)
        · exact Option.some.inj found ▸ List.mem_cons_self

theorem leastLoaded?_isSome {hosts : List HostId} (nonempty : hosts ≠ []) :
    ∃ host, plan.leastLoaded? hosts = some host := by
  cases hosts with
  | nil => exact absurd rfl nonempty
  | cons head rest =>
      rw [leastLoaded?]
      split
      · exact ⟨head, rfl⟩
      · rename_i other _
        split
        · exact ⟨other, rfl⟩
        · exact ⟨head, rfl⟩

theorem eq_nil_of_leastLoaded?_eq_none {hosts : List HostId}
    (none : plan.leastLoaded? hosts = none) : hosts = [] := by
  by_contra nonempty
  rcases plan.leastLoaded?_isSome nonempty with ⟨host, found⟩
  rw [found] at none
  cases none

theorem startsOn_startOn (selector : Labels) (host other : HostId) :
    (plan.startOn selector host).startsOn other =
      plan.startsOn other + if other = host then 1 else 0 := by
  simp only [startsOn, startOn, addLoad, SortedMap.find?_insert]
  split
  · rename_i same
    subst same
    cases plan.starts.find? other <;> simp
  · rfl

theorem startMany_unclaimed : (startMany site missing plan).unclaimed = plan.unclaimed := by
  induction missing generalizing plan with
  | zero => rfl
  | succ missing ih =>
      rw [startMany]
      split
      · rfl
      · exact ih _

theorem startsOn_startMany_of_notMem {host : HostId} (elsewhere : host ∉ site.hosts) :
    (startMany site missing plan).startsOn host = plan.startsOn host := by
  induction missing generalizing plan with
  | zero => rfl
  | succ missing ih =>
      rw [startMany]
      split
      · rfl
      · rename_i chosen found
        have different : host ≠ chosen := fun same =>
          elsewhere (same ▸ plan.leastLoaded?_mem found)
        rw [ih, startsOn_startOn, if_neg different, Nat.add_zero]

theorem startsAt_startOn (selector : Labels) {host : HostId} {hosts : List HostId}
    (nodup : hosts.Nodup) (member : host ∈ hosts) :
    (plan.startOn selector host).startsAt hosts = plan.startsAt hosts + 1 := by
  have onHosts : ∀ hosts, (plan.startOn selector host).startsAt hosts =
      plan.startsAt hosts + hosts.count host := by
    intro hosts
    induction hosts with
    | nil => rfl
    | cons head rest ih =>
        simp only [startsAt, List.map_cons, List.sum_cons, startsOn_startOn] at ih ⊢
        rw [ih, List.count_cons]
        simp only [beq_iff_eq]
        omega
  rw [onHosts, List.count_eq_one_of_mem nodup member]

theorem startsAt_startMany (nodup : site.hosts.Nodup) (nonempty : site.hosts ≠ []) :
    (startMany site missing plan).startsAt site.hosts = plan.startsAt site.hosts + missing := by
  induction missing generalizing plan with
  | zero => rfl
  | succ missing ih =>
      rcases plan.leastLoaded?_isSome nonempty with ⟨host, found⟩
      rw [startMany, found]
      simp only
      rw [ih, plan.startsAt_startOn _ nodup (plan.leastLoaded?_mem found)]
      omega

end Starts

section Serving

variable (plan : Plan) (site : Site) (wanted : Nat)

theorem foldl_addLoad (hosts : List HostId) :
    (hosts.foldl addLoad plan).unclaimed = plan.unclaimed ∧
      (hosts.foldl addLoad plan).claimed = plan.claimed ∧
      (hosts.foldl addLoad plan).starts = plan.starts := by
  induction hosts generalizing plan with
  | nil => exact ⟨rfl, rfl, rfl⟩
  | cons host rest ih => exact ih (plan.addLoad host)

theorem claim_claimed :
    (plan.claim site wanted).claimed = plan.claimed ++ site.newest wanted plan.unclaimed :=
  congrArg (· ++ _) (plan.foldl_addLoad _).2.1

theorem claim_unclaimed :
    (plan.claim site wanted).unclaimed =
      plan.unclaimed.filter fun placed => !(site.newest wanted plan.unclaimed).contains placed :=
  congrArg (List.filter _) (plan.foldl_addLoad _).1

theorem claim_load :
    (plan.claim site wanted).load =
      (((site.newest wanted plan.unclaimed).map PlacedInstance.host).foldl addLoad plan).load :=
  rfl

theorem claim_starts : (plan.claim site wanted).starts = plan.starts :=
  (plan.foldl_addLoad _).2.2

/-- What a site does to a plan: it claims instances, and starts as many as it lacks. -/
theorem serve_eq :
    plan.serve site wanted =
      startMany site (wanted - (site.newest wanted plan.unclaimed).length)
        (plan.claim site wanted) := by
  rw [serve, claim_claimed, List.length_append, Nat.add_sub_cancel_left]

theorem serve_unclaimed :
    (plan.serve site wanted).unclaimed =
      plan.unclaimed.filter fun placed => !(site.newest wanted plan.unclaimed).contains placed := by
  rw [serve_eq, startMany_unclaimed, claim_unclaimed]

/-- A site takes nothing on hosts that are apart from its own. -/
theorem filter_unclaimed_serve {other : Site} (apart : site.hosts.Disjoint other.hosts) :
    (plan.serve site wanted).unclaimed.filter other.holds = plan.unclaimed.filter other.holds := by
  rw [serve_unclaimed, List.filter_filter]
  refine List.filter_congr fun placed _ => ?_
  by_cases held : placed.host ∈ other.hosts
  · have notTaken : placed ∉ site.newest wanted plan.unclaimed :=
      fun taken => apart (Site.mem_of_mem_newest taken).2 held
    simp [Site.holds, held, notTaken]
  · simp [Site.holds, held]

theorem startsOn_serve_of_notMem {host : HostId} (elsewhere : host ∉ site.hosts) :
    (plan.serve site wanted).startsOn host = plan.startsOn host := by
  rw [serve_eq, startsOn_startMany_of_notMem _ _ _ elsewhere, startsOn, claim_starts, startsOn]

theorem startsAt_serve (nodup : site.hosts.Nodup) (nonempty : site.hosts ≠ []) :
    (plan.serve site wanted).startsAt site.hosts =
      plan.startsAt site.hosts + (wanted - (site.newest wanted plan.unclaimed).length) := by
  have claimed : (plan.claim site wanted).startsOn = plan.startsOn := by
    funext host
    rw [startsOn, claim_starts, startsOn]
  rw [serve_eq, startsAt_startMany _ _ _ nodup nonempty, startsAt, claimed, startsAt]

theorem serve_starts_of_enough (enough : wanted ≤ (site.newest wanted plan.unclaimed).length) :
    (plan.serve site wanted).starts = plan.starts := by
  rw [serve_eq, Nat.sub_eq_zero_of_le enough, startMany, claim_starts]

end Serving

/-- The plan after sites were served, each with the number of instances that it wants. -/
def serveAll (plan : Plan) (shares : List (Site × Nat)) : Plan :=
  shares.foldl (fun plan (site, wanted) => plan.serve site wanted) plan

theorem serveAll_cons (plan : Plan) (site : Site) (wanted : Nat) (shares : List (Site × Nat)) :
    plan.serveAll ((site, wanted) :: shares) = (plan.serve site wanted).serveAll shares :=
  rfl

theorem unclaimed_serveAll_sublist (plan : Plan) (shares : List (Site × Nat)) :
    (plan.serveAll shares).unclaimed.Sublist plan.unclaimed := by
  induction shares generalizing plan with
  | nil => exact List.Sublist.refl _
  | cons share rest ih =>
      apply (ih _).trans
      rw [serve_unclaimed]
      exact List.filter_sublist

theorem startsOn_serveAll_of_notMem (plan : Plan) {shares : List (Site × Nat)} {host : HostId}
    (elsewhere : ∀ share ∈ shares, host ∉ share.1.hosts) :
    (plan.serveAll shares).startsOn host = plan.startsOn host := by
  induction shares generalizing plan with
  | nil => rfl
  | cons share rest ih =>
      rcases List.forall_mem_cons.mp elsewhere with ⟨notHere, notInRest⟩
      rw [serveAll_cons, ih _ notInRest, startsOn_serve_of_notMem _ _ _ notHere]

/-- No two sites have a host in common. -/
def Apart (shares : List (Site × Nat)) : Prop :=
  shares.Pairwise fun first second => first.1.hosts.Disjoint second.1.hosts

theorem Apart.eq_of_mem_hosts {shares : List (Site × Nat)} (apart : Apart shares)
    {first second : Site × Nat} (firstMember : first ∈ shares) (secondMember : second ∈ shares)
    {host : HostId} (onFirst : host ∈ first.1.hosts) (onSecond : host ∈ second.1.hosts) :
    first = second := by
  have symmetric : Std.Symm fun first second : Site × Nat =>
      first.1.hosts.Disjoint second.1.hosts :=
    ⟨fun _ _ => List.disjoint_symm⟩
  by_contra different
  exact List.Pairwise.forall apart firstMember secondMember different onFirst onSecond

section Apart

variable {plan : Plan} {site other : Site} {wanted : Nat} {shares : List (Site × Nat)}

/-- A site takes nothing that another site without a common host could take. -/
theorem newest_serve (apart : site.hosts.Disjoint other.hosts) (wantedOther : Nat) :
    other.newest wantedOther (plan.serve site wanted).unclaimed =
      other.newest wantedOther plan.unclaimed := by
  rw [Site.newest, Site.newest, filter_unclaimed_serve _ _ _ apart]

/-- What is left over when sites without common hosts were served is what none of them took. -/
theorem mem_serveAll_unclaimed_iff (apart : Apart shares) {placed : PlacedInstance} :
    placed ∈ (plan.serveAll shares).unclaimed ↔
      placed ∈ plan.unclaimed ∧
        ∀ share ∈ shares, placed ∉ share.1.newest share.2 plan.unclaimed := by
  induction shares generalizing plan with
  | nil => simp [serveAll]
  | cons share rest ih =>
      rcases share with ⟨site, wanted⟩
      rcases List.pairwise_cons.mp apart with ⟨headApart, restApart⟩
      have others : (∀ share ∈ rest,
            placed ∉ share.1.newest share.2 (plan.serve site wanted).unclaimed) ↔
          ∀ share ∈ rest, placed ∉ share.1.newest share.2 plan.unclaimed :=
        forall₂_congr fun share member => by rw [newest_serve (headApart share member)]
      rw [serveAll_cons, ih restApart, others, serve_unclaimed, List.forall_mem_cons]
      simp [and_assoc]

/-- On its hosts, each of some sites without common hosts starts as many instances as it lacks. -/
theorem startsAt_serveAll (apart : Apart shares) (nodup : ∀ share ∈ shares, share.1.hosts.Nodup)
    {share : Site × Nat} (member : share ∈ shares) (nonempty : share.1.hosts ≠ []) :
    (plan.serveAll shares).startsAt share.1.hosts =
      plan.startsAt share.1.hosts +
        (share.2 - (share.1.newest share.2 plan.unclaimed).length) := by
  induction shares generalizing plan with
  | nil => cases member
  | cons head rest ih =>
      rcases head with ⟨site, wanted⟩
      rcases List.pairwise_cons.mp apart with ⟨headApart, restApart⟩
      rcases List.forall_mem_cons.mp nodup with ⟨headNodup, restNodup⟩
      rw [serveAll_cons]
      rcases List.mem_cons.mp member with rfl | inRest
      · -- The sites that are served later start nothing here.
        have untouched : (site.hosts.map ((plan.serve site wanted).serveAll rest).startsOn) =
            site.hosts.map (plan.serve site wanted).startsOn :=
          List.map_congr_left fun host onSite => startsOn_serveAll_of_notMem _
            fun other otherMember onOther => headApart other otherMember onSite onOther
        rw [startsAt, untouched]
        exact plan.startsAt_serve site wanted headNodup nonempty
      · -- The site that is served first starts nothing here, and takes nothing from here.
        have untouched : (share.1.hosts.map (plan.serve site wanted).startsOn) =
            share.1.hosts.map plan.startsOn :=
          List.map_congr_left fun host onShare => plan.startsOn_serve_of_notMem site wanted
            fun onSite => headApart share inRest onSite onShare
        rw [ih restApart restNodup inRest, newest_serve (headApart share inRest), startsAt,
          untouched, startsAt]

theorem serveAll_starts_of_enough (apart : Apart shares)
    (enough : ∀ share ∈ shares,
      share.2 ≤ (share.1.newest share.2 plan.unclaimed).length) :
    (plan.serveAll shares).starts = plan.starts := by
  induction shares generalizing plan with
  | nil => rfl
  | cons head rest ih =>
      rcases head with ⟨site, wanted⟩
      rcases List.pairwise_cons.mp apart with ⟨headApart, restApart⟩
      rcases List.forall_mem_cons.mp enough with ⟨headEnough, restEnough⟩
      rw [serveAll_cons, ih restApart, serve_starts_of_enough _ _ _ headEnough]
      intro share member
      rw [newest_serve (headApart share member)]
      exact restEnough share member

end Apart

end Plan

section Sites

/-- No two sites of a scaler have a host in common. -/
def SitesApart (scaler : SpreadScaler) (observed : ObservedState) : Prop :=
  (sitesOf scaler observed).Pairwise fun first second => first.hosts.Disjoint second.hosts

variable {scaler : SpreadScaler} {first second : ObservedState}

theorem nodup_hosts_of_mem_sitesOf {observed : ObservedState} {site : Site}
    (member : site ∈ sitesOf scaler observed) : site.hosts.Nodup := by
  rcases List.mem_map.mp member with ⟨target, _, rfl⟩
  exact SortedMap.nodup_keys _

/-- A target accepts hosts by their labels, and looks at nothing else. -/
theorem acceptedHosts_congr
    (labels : ∀ id, (first.host? id).map HostState.labels = (second.host? id).map HostState.labels)
    (target : WeightedTarget) : acceptedHosts target first = acceptedHosts target second := by
  have same : (first.hosts.mapValues fun _ host => host.labels) =
      second.hosts.mapValues fun _ host => host.labels := by
    refine SortedMap.ext_find? fun id => ?_
    rw [SortedMap.find?_mapValues, SortedMap.find?_mapValues]
    exact labels id
  rw [acceptedHosts, acceptedHosts,
    ← SortedMap.keys_filter_mapValues first.hosts (fun _ host => host.labels)
      fun _ labels => target.accepts labels,
    ← SortedMap.keys_filter_mapValues second.hosts (fun _ host => host.labels)
      fun _ labels => target.accepts labels, same]

theorem sitesOf_congr
    (labels : ∀ id,
      (first.host? id).map HostState.labels = (second.host? id).map HostState.labels) :
    sitesOf scaler first = sitesOf scaler second :=
  List.map_congr_left fun target _ => by rw [acceptedHosts_congr labels]

end Sites

section Allocation

theorem assignShares_fst (sites : List Site) (shares : List UInt32) :
    (assignShares sites shares).map Prod.fst = sites := by
  induction sites generalizing shares with
  | nil => rfl
  | cons site rest ih =>
      rw [assignShares]
      split <;> simp [ih]

/-- A site without hosts wants nothing, and no site wants more than a number can say. -/
theorem assignShares_snd {sites : List Site} {shares : List UInt32} {share : Site × Nat}
    (member : share ∈ assignShares sites shares) :
    (share.1.hosts = [] → share.2 = 0) ∧ share.2 < UInt32.size := by
  induction sites generalizing shares with
  | nil => cases member
  | cons site rest ih =>
      rw [assignShares] at member
      split at member
      · rcases List.mem_cons.mp member with rfl | inRest
        · exact ⟨fun _ => rfl, Nat.two_pow_pos 32⟩
        · exact ih inRest
      · rename_i hasHosts
        rcases List.mem_cons.mp member with rfl | inRest
        · refine ⟨fun noHosts => absurd ?_ hasHosts, UInt32.toNat_lt _⟩
          exact List.isEmpty_iff.mpr noHosts
        · exact ih inRest

theorem allocate_fst (total : UInt32) (sites : List Site) :
    (allocate total sites).map Prod.fst = sites :=
  assignShares_fst _ _

variable {total : UInt32} {sites : List Site}

theorem exists_mem_allocate {site : Site} (member : site ∈ sites) :
    ∃ share ∈ allocate total sites, share.1 = site :=
  List.mem_map.mp ((allocate_fst total sites).symm ▸ member)

theorem site_mem_of_mem_allocate {share : Site × Nat} (member : share ∈ allocate total sites) :
    share.1 ∈ sites :=
  allocate_fst total sites ▸ List.mem_map_of_mem member

theorem allocate_snd {share : Site × Nat} (member : share ∈ allocate total sites) :
    (share.1.hosts = [] → share.2 = 0) ∧ share.2 < UInt32.size :=
  assignShares_snd member

theorem apart_allocate
    (apart : sites.Pairwise fun first second => first.hosts.Disjoint second.hosts) :
    Plan.Apart (allocate total sites) := by
  rw [← allocate_fst total sites, List.pairwise_map] at apart
  exact apart

end Allocation

end Reconciler.Spread
