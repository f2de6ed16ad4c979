import Reconciler.Proofs.Placement.Balance
import Reconciler.Proofs.Placement.Conservation

/-!
# Starts even out

The load that a plan notes for a host is the number of instances that will be there: those claimed
and those started. A start goes to a host with the least load, the first of several, so that a host
that has had one is at most one ahead of any other host of its site, and only of later ones. Other
starts for the site leave this as it is, and so do sites without a common host.
-/

namespace Reconciler.Spread

/-- Whether the hosts of a site come in order. -/
def Site.Ordered (site : Site) : Prop :=
  site.hosts.Pairwise fun first second => compare first second = .lt

namespace Plan

/-- The number of instances that are claimed or started on a host. -/
def countOn (plan : Plan) (host : HostId) : Nat :=
  (plan.claimed.map PlacedInstance.host).count host + plan.startsOn host

section Loads

variable {plan : Plan} {site : Site} {wanted : Nat}

theorem loadOf_foldl_addLoad (plan : Plan) (hosts : List HostId) (host : HostId) :
    (hosts.foldl addLoad plan).loadOf host = plan.loadOf host + hosts.count host := by
  induction hosts generalizing plan with
  | nil => rfl
  | cons head rest ih =>
      rw [List.foldl_cons, ih, loadOf_addLoad, List.count_cons]
      simp only [beq_iff_eq, eq_comm (a := head)]
      omega

theorem loadOf_claim (plan : Plan) (site : Site) (wanted : Nat) (host : HostId) :
    (plan.claim site wanted).loadOf host =
      plan.loadOf host +
        ((site.newest wanted plan.unclaimed).map PlacedInstance.host).count host := by
  rw [← loadOf_foldl_addLoad, loadOf, claim_load, loadOf]

/-- Serving a site adds what it claims and what it starts to the loads of hosts. -/
theorem loadOf_serve_add (plan : Plan) (site : Site) (wanted : Nat) (host : HostId) :
    (plan.serve site wanted).loadOf host + plan.startsOn host =
      plan.loadOf host + ((site.newest wanted plan.unclaimed).map PlacedInstance.host).count host +
        (plan.serve site wanted).startsOn host := by
  have sameStarts : (plan.claim site wanted).startsOn host = plan.startsOn host := by
    rw [startsOn, claim_starts, startsOn]
  rw [serve_eq, ← loadOf_claim, ← sameStarts]
  exact loadOf_startMany _ site _ host

theorem loadOf_serve (exact : ∀ host, plan.loadOf host = plan.countOn host) (host : HostId) :
    (plan.serve site wanted).loadOf host = (plan.serve site wanted).countOn host := by
  have added := plan.loadOf_serve_add site wanted host
  have before := exact host
  rw [countOn] at before
  rw [countOn, serve_claimed, List.map_append, List.count_append]
  omega

theorem loadOf_serveAll {shares : List (Site × Nat)}
    (exact : ∀ host, plan.loadOf host = plan.countOn host) (host : HostId) :
    (plan.serveAll shares).loadOf host = (plan.serveAll shares).countOn host := by
  induction shares generalizing plan with
  | nil => exact exact host
  | cons share rest ih => exact ih (loadOf_serve exact)

theorem loadOf_serve_of_notMem {host : HostId} (elsewhere : host ∉ site.hosts) :
    (plan.serve site wanted).loadOf host = plan.loadOf host := by
  have added := plan.loadOf_serve_add site wanted host
  have noClaims : ((site.newest wanted plan.unclaimed).map PlacedInstance.host).count host = 0 := by
    apply List.count_eq_zero.mpr
    intro claimed
    rcases List.mem_map.mp claimed with ⟨placed, taken, rfl⟩
    exact elsewhere (Site.mem_of_mem_newest taken).2
  rw [startsOn_serve_of_notMem _ _ _ elsewhere, noClaims] at added
  omega

theorem loadOf_serveAll_of_notMem {shares : List (Site × Nat)} {host : HostId}
    (elsewhere : ∀ share ∈ shares, host ∉ share.1.hosts) :
    (plan.serveAll shares).loadOf host = plan.loadOf host := by
  induction shares generalizing plan with
  | nil => rfl
  | cons share rest ih =>
      rcases List.forall_mem_cons.mp elsewhere with ⟨notHere, notInRest⟩
      rw [serveAll_cons, ih notInRest, loadOf_serve_of_notMem notHere]

end Loads

/--
Whether each host of a site on which instances are started carries at most one instance more than
any other host of the site, and one more only than hosts that come after it.
-/
def EvenOn (plan : Plan) (site : Site) : Prop :=
  ∀ host ∈ site.hosts, 0 < plan.startsOn host → ∀ other ∈ site.hosts,
    plan.loadOf host ≤ plan.loadOf other + 1 ∧
      (plan.loadOf host = plan.loadOf other + 1 → compare host other = .lt)

section EvenOn

variable {plan : Plan} {site : Site}

/-- The least loaded host of a site carries less than another or comes before it. -/
theorem leastLoaded?_first (ordered : site.Ordered) {host : HostId}
    (found : plan.leastLoaded? site.hosts = some host) {other : HostId}
    (member : other ∈ site.hosts) (different : other ≠ host) :
    plan.loadOf host < plan.loadOf other ∨
      plan.loadOf host ≤ plan.loadOf other ∧ compare host other = .lt := by
  rcases plan.leastLoaded?_eq_append found with ⟨before, after, split, lessBefore, leAfter⟩
  rw [Site.Ordered, split] at ordered
  rw [split] at member
  rcases List.mem_append.mp member with isBefore | notBefore
  · exact Or.inl (lessBefore other isBefore)
  · have isAfter := (List.mem_cons.mp notBefore).resolve_left different
    have hostFirst := (List.pairwise_cons.mp (List.pairwise_append.mp ordered).2.1).1
    exact Or.inr ⟨leAfter other isAfter, hostFirst other isAfter⟩

/-- A start on the least loaded host leaves a site even. -/
theorem EvenOn.startOn (even : plan.EvenOn site) (selector : Labels) (ordered : site.Ordered)
    {chosen : HostId} (found : plan.leastLoaded? site.hosts = some chosen) :
    (plan.startOn selector chosen).EvenOn site := by
  intro host onSite started other otherOnSite
  rw [loadOf_startOn, loadOf_startOn]
  by_cases isChosen : host = chosen
  · subst isChosen
    by_cases same : other = host
    · subst same
      omega
    · have first := leastLoaded?_first ordered found otherOnSite same
      rw [if_pos rfl, if_neg same]
      constructor
      · omega
      · intro ahead
        rcases first with less | ⟨_, before⟩
        · omega
        · exact before
  · -- The host had its starts before, and its load is what it was.
    rw [startsOn_startOn, if_neg isChosen] at started
    rcases even host onSite started other otherOnSite with ⟨atMost, whenAhead⟩
    rw [if_neg isChosen]
    split
    · omega
    · exact ⟨atMost, whenAhead⟩

theorem EvenOn.startMany (even : plan.EvenOn site) (ordered : site.Ordered) (missing : Nat) :
    (startMany site missing plan).EvenOn site := by
  induction missing generalizing plan with
  | zero => exact even
  | succ missing ih =>
      rw [Plan.startMany]
      split
      · exact even
      · rename_i chosen found
        exact ih (even.startOn _ ordered found)

/-- A site on whose hosts nothing was started is even once it was served. -/
theorem evenOn_serve (nothing : ∀ host ∈ site.hosts, plan.startsOn host = 0)
    (ordered : site.Ordered) (wanted : Nat) : (plan.serve site wanted).EvenOn site := by
  rw [serve_eq]
  apply EvenOn.startMany _ ordered
  intro host onSite started
  rw [startsOn, claim_starts] at started
  exact absurd (nothing host onSite) (Nat.ne_of_gt started)

/-- Sites without common hosts are even once all of them were served. -/
theorem evenOn_serveAll {shares : List (Site × Nat)} (apart : Apart shares)
    (nothing : ∀ share ∈ shares, ∀ host ∈ share.1.hosts, plan.startsOn host = 0)
    (ordered : ∀ share ∈ shares, share.1.Ordered)
    {share : Site × Nat} (member : share ∈ shares) : (plan.serveAll shares).EvenOn share.1 := by
  induction shares generalizing plan with
  | nil => cases member
  | cons head rest ih =>
      rcases head with ⟨first, wanted⟩
      rcases List.pairwise_cons.mp apart with ⟨headApart, restApart⟩
      rcases List.forall_mem_cons.mp nothing with ⟨nothingHere, nothingInRest⟩
      rcases List.forall_mem_cons.mp ordered with ⟨headOrdered, restOrdered⟩
      rw [serveAll_cons]
      rcases List.mem_cons.mp member with rfl | inRest
      · -- The sites that are served later change nothing here.
        have elsewhere : ∀ host ∈ first.hosts, ∀ other ∈ rest, host ∉ other.1.hosts :=
          fun host onFirst other otherMember onOther =>
            headApart other otherMember onFirst onOther
        intro host onFirst started other otherOnFirst
        rw [startsOn_serveAll_of_notMem _ (elsewhere host onFirst)] at started
        rw [loadOf_serveAll_of_notMem (elsewhere host onFirst),
          loadOf_serveAll_of_notMem (elsewhere other otherOnFirst)]
        exact evenOn_serve nothingHere headOrdered wanted host onFirst started other otherOnFirst
      · apply ih restApart _ restOrdered inRest
        intro other otherMember host onOther
        rw [startsOn_serve_of_notMem]
        · exact nothingInRest other otherMember host onOther
        · exact fun onFirst => headApart other otherMember onFirst onOther

end EvenOn

end Plan

section Evaluation

variable {app : AppName} {id : ComponentId} {component : Component} {scaler : SpreadScaler}
  {observed : ObservedState}

theorem ordered_of_mem_sitesOf {site : Site} (member : site ∈ sitesOf scaler observed) :
    site.Ordered := by
  rcases List.mem_map.mp member with ⟨target, _, rfl⟩
  exact List.pairwise_map.mpr (SortedMap.sorted _)

theorem evenOn_plan (apart : SitesApart scaler observed) {site : Site}
    (member : site ∈ sitesOf scaler observed) :
    (plan app id component scaler observed).EvenOn site := by
  obtain ⟨share, shareMember, rfl⟩ : ∃ share ∈ allocate scaler.instances _, share.1 = site :=
    exists_mem_allocate member
  rw [plan_eq]
  apply Plan.evenOn_serveAll (apart_allocate apart) _ _ shareMember
  · exact fun _ _ _ _ => rfl
  · exact fun other otherMember => ordered_of_mem_sitesOf (site_mem_of_mem_allocate otherMember)

/-- The load of a host is what is kept and what is started there. -/
theorem loadOf_plan (apart : SitesApart scaler observed) (host : HostId) :
    (plan app id component scaler observed).loadOf host =
      ((kept app id component scaler observed).map PlacedInstance.host).count host +
        ((evaluate app id component scaler observed).map
          (RequiredAction.startsOf id host)).sum := by
  rw [sum_startsOf_evaluate apart, (kept_perm.map PlacedInstance.host).count_eq, ← Plan.countOn,
    plan_eq]
  exact Plan.loadOf_serveAll (fun _ => rfl) host

end Evaluation

/--
If no two targets have a host in common, new instances go where the fewest are: a host that gets a
start for a target ends up with at most one instance more than any other host that the target
accepts, kept and started ones together, and with one more only than hosts that come after it.
-/
theorem started_evenly {app : AppName} {id : ComponentId} {component : Component}
    {scaler : SpreadScaler} {observed : ObservedState} (apart : SitesApart scaler observed)
    {target : WeightedTarget} (member : target ∈ targetsOf scaler) {host : HostId}
    (accepted : host ∈ acceptedHosts target observed) {kind : ComponentKind} {imageRef : String}
    {selector : Labels} {count : UInt32}
    (started : .startInstances id kind imageRef host selector count ∈
      evaluate app id component scaler observed)
    {other : HostId} (otherAccepted : other ∈ acceptedHosts target observed) :
    let instancesOn (host : HostId) :=
      ((kept app id component scaler observed).map PlacedInstance.host).count host +
        ((evaluate app id component scaler observed).map (RequiredAction.startsOf id host)).sum
    instancesOn host ≤ instancesOn other + 1 ∧
      (instancesOn host = instancesOn other + 1 → compare host other = .lt) := by
  intro instancesOn
  have startedThere : 0 < (plan app id component scaler observed).startsOn host := by
    have part : RequiredAction.startsOf id host (.startInstances id kind imageRef host selector
        count) ≤ _ := List.le_sum_of_mem (List.mem_map_of_mem started)
    rw [sum_startsOf_evaluate apart, RequiredAction.startsOf, if_pos ⟨rfl, rfl⟩] at part
    exact (exists_start_of_mem_evaluate started).1.trans_le part
  have even : (plan app id component scaler observed).EvenOn
      ⟨target, acceptedHosts target observed⟩ := evenOn_plan apart (List.mem_map_of_mem member)
  have bounds := even host accepted startedThere other otherAccepted
  rw [loadOf_plan apart, loadOf_plan apart] at bounds
  exact bounds

/--
A zone with one instance on its first host gets two more, the first of them on the second host; the
first host is then one ahead of the second, before which it comes.
-/
theorem started_evenly_of_zones :
    let inZone (zone : String) (weight : UInt32) : WeightedTarget :=
      (WeightedTarget.new zone weight).require "zone" zone
    let component : Component := .new "api" .component "registry/api:2"
    let scaler := ((SpreadScaler.new 4).withTarget (inZone "a" 3)).withTarget (inZone "b" 1)
    let event (host : String) (sequence : UInt64) (kind : LatticeEventKind) : LatticeEvent :=
      ⟨⟨"prod"⟩, ⟨host⟩, sequence, ⟨sequence.toNat, 0⟩, kind⟩
    let startedIn (zone host : String) : LatticeEvent :=
      event host 1 (.hostStarted (.ofList [("zone", zone)]) none)
    let observed : ObservedState := .replay ⟨"prod"⟩
      [startedIn "a" "host-1", startedIn "a" "host-2", startedIn "b" "host-3",
        event "host-1" 2 (.instanceStarted ⟨"shop-api"⟩ .component "registry/api:2" ⟨"i-1"⟩
          (.forApp ⟨"shop"⟩))]
    let start (zone host : String) : RequiredAction :=
      .startInstances ⟨"shop-api"⟩ .component "registry/api:2" ⟨host⟩ (inZone zone 1).requirements 1
    let actions := [start "a" "host-1", start "a" "host-2", start "b" "host-3"]
    let instancesOn (host : String) :=
      ((kept ⟨"shop"⟩ ⟨"shop-api"⟩ component scaler observed).map
          PlacedInstance.host).count ⟨host⟩ +
        (actions.map (RequiredAction.startsOf ⟨"shop-api"⟩ ⟨host⟩)).sum
    SitesApart scaler observed ∧
      evaluate ⟨"shop"⟩ ⟨"shop-api"⟩ component scaler observed = actions ∧
      instancesOn "host-1" = 2 ∧ instancesOn "host-2" = 1 ∧
      compare (⟨"host-1"⟩ : HostId) ⟨"host-2"⟩ = .lt := by
  intro inZone component scaler event startedIn observed start actions instancesOn
  have inPool : pool ⟨"shop"⟩ ⟨"shop-api"⟩ observed =
      [⟨⟨"host-1"⟩, ⟨"i-1"⟩, ⟨⟨"shop-api"⟩, .component, "registry/api:2", .forApp ⟨"shop"⟩,
        ⟨2, 0⟩, 2, .running⟩⟩] := by decide +kernel
  have sites : sitesOf scaler observed =
      [⟨inZone "a" 3, [⟨"host-1"⟩, ⟨"host-2"⟩]⟩, ⟨inZone "b" 1, [⟨"host-3"⟩]⟩] := by decide +kernel
  have shared : Allocation.largestRemainder 4 [3, 1] = [3, 1] := by cbv
  have allocated : allocate scaler.instances (sitesOf scaler observed) =
      [(⟨inZone "a" 3, [⟨"host-1"⟩, ⟨"host-2"⟩]⟩, 3), (⟨inZone "b" 1, [⟨"host-3"⟩]⟩, 1)] := by
    rw [sites]
    exact congrArg (assignShares _) shared
  have asked : evaluate ⟨"shop"⟩ ⟨"shop-api"⟩ component scaler observed = actions := by
    rw [evaluate, plan, allocated, inPool]
    decide +kernel
  have apart : SitesApart scaler observed := by
    rw [SitesApart, sites]
    simp
  have counts : instancesOn "host-1" = 2 ∧ instancesOn "host-2" = 1 := by
    simp only [instancesOn, kept, asked, inPool]
    decide +kernel
  have started : start "a" "host-1" ∈ evaluate ⟨"shop"⟩ ⟨"shop-api"⟩ component scaler observed :=
    asked ▸ List.mem_cons_self
  have first : ⟨"host-1"⟩ ∈ acceptedHosts (inZone "a" 3) observed := by decide +kernel
  have second : ⟨"host-2"⟩ ∈ acceptedHosts (inZone "a" 3) observed := by decide +kernel
  have even := started_evenly apart List.mem_cons_self first started second
  simp only [asked] at even
  have oneAhead : instancesOn "host-1" = instancesOn "host-2" + 1 := by rw [counts.1, counts.2]
  exact ⟨apart, asked, counts.1, counts.2, even.2 oneAhead⟩

end Reconciler.Spread
