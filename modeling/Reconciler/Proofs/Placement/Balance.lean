import Reconciler.Proofs.Placement.Starts

/-!
# Filling idle hosts

A start goes to a host that carries the fewest instances, so to an idle one as long as there is one.
As many starts as a site has hosts leave none of them idle.
-/

namespace Reconciler.Spread

namespace Plan

theorem loadOf_addLoad (plan : Plan) (host other : HostId) :
    (plan.addLoad host).loadOf other = plan.loadOf other + if other = host then 1 else 0 := by
  simp only [loadOf, addLoad, SortedMap.find?_insert]
  split
  · rename_i same
    rw [same]
    rfl
  · rfl

theorem loadOf_startOn (plan : Plan) (selector : Labels) (host other : HostId) :
    (plan.startOn selector host).loadOf other =
      plan.loadOf other + if other = host then 1 else 0 :=
  plan.loadOf_addLoad host other

/-- The least loaded host carries less than those before it, and no more than those after it. -/
theorem leastLoaded?_eq_append (plan : Plan) {hosts : List HostId} {host : HostId}
    (found : plan.leastLoaded? hosts = some host) :
    ∃ before after, hosts = before ++ host :: after ∧
      (∀ other ∈ before, plan.loadOf host < plan.loadOf other) ∧
      ∀ other ∈ after, plan.loadOf host ≤ plan.loadOf other := by
  induction hosts generalizing host with
  | nil => cases found
  | cons head rest ih =>
      rw [leastLoaded?] at found
      cases least : plan.leastLoaded? rest with
      | none =>
          rw [least, Option.some.injEq] at found
          refine ⟨[], rest, found ▸ rfl, List.forall_mem_nil _, ?_⟩
          rw [plan.eq_nil_of_leastLoaded?_eq_none least]
          exact List.forall_mem_nil _
      | some lightest =>
          rcases ih least with ⟨before, after, rfl, lessBefore, leAfter⟩
          simp only [least] at found
          split at found
          · rename_i lighter
            obtain rfl := Option.some.inj found
            exact ⟨head :: before, after, rfl, List.forall_mem_cons.mpr ⟨lighter, lessBefore⟩,
              leAfter⟩
          · rename_i noLighter
            obtain rfl := Option.some.inj found
            refine ⟨[], _, rfl, List.forall_mem_nil _, ?_⟩
            rw [List.forall_mem_append, List.forall_mem_cons]
            refine ⟨?_, ?_, ?_⟩
            · intro other member
              have := lessBefore other member
              omega
            · exact Nat.le_of_not_lt noLighter
            · intro other member
              have := leAfter other member
              omega

theorem loadOf_leastLoaded?_le (plan : Plan) {hosts : List HostId} {host : HostId}
    (found : plan.leastLoaded? hosts = some host) :
    ∀ other ∈ hosts, plan.loadOf host ≤ plan.loadOf other := by
  rcases plan.leastLoaded?_eq_append found with ⟨before, after, rfl, lessBefore, leAfter⟩
  rw [List.forall_mem_append, List.forall_mem_cons]
  exact ⟨fun other member => Nat.le_of_lt (lessBefore other member), Nat.le_refl _, leAfter⟩

/-- The hosts of a site that carry nothing. -/
def idle (plan : Plan) (site : Site) : List HostId :=
  site.hosts.filter fun host => plan.loadOf host = 0

theorem length_idle_startOn {plan : Plan} {site : Site} (selector : Labels) {host : HostId}
    (found : plan.leastLoaded? site.hosts = some host) :
    ((plan.startOn selector host).idle site).length ≤ (plan.idle site).length - 1 := by
  have others : (plan.startOn selector host).idle site =
      (plan.idle site).filter fun other => other ≠ host := by
    rw [idle, idle, List.filter_filter]
    apply List.filter_congr
    intro other _
    rw [loadOf_startOn]
    by_cases same : other = host
    · simp [same]
    · simp [same]
  rw [others]
  cases idleHosts : plan.idle site with
  | nil => apply Nat.zero_le
  | cons first rest =>
      -- One host is idle, so the one with the least load is.
      have firstIdle : first ∈ plan.idle site := idleHosts ▸ List.mem_cons_self
      rcases List.mem_filter.mp firstIdle with ⟨onSite, noLoad⟩
      have least := plan.loadOf_leastLoaded?_le found first onSite
      have hostIdle : host ∈ plan.idle site := by
        apply List.mem_filter.mpr
        refine ⟨plan.leastLoaded?_mem found, ?_⟩
        rw [decide_eq_true_iff] at noLoad ⊢
        omega
      have fewer : ((plan.idle site).filter fun other => other ≠ host).length <
          (plan.idle site).length := by
        apply List.length_filter_lt_length_iff_exists.mpr
        exact ⟨host, hostIdle, by simp⟩
      rw [idleHosts] at fewer
      omega

theorem length_idle_startMany (site : Site) (missing : Nat) (plan : Plan) :
    ((startMany site missing plan).idle site).length ≤ (plan.idle site).length - missing := by
  induction missing generalizing plan with
  | zero => apply Nat.le_refl
  | succ missing ih =>
      rw [startMany]
      cases found : plan.leastLoaded? site.hosts with
      | none =>
          have noHosts := plan.eq_nil_of_leastLoaded?_eq_none found
          simp [idle, noHosts]
      | some host =>
          have step := length_idle_startOn site.target.requirements found
          have run := ih (plan.startOn site.target.requirements host)
          simp only
          omega

/-- While a site starts instances, their hosts carry as many more as are started on them. -/
theorem loadOf_startMany (plan : Plan) (site : Site) (missing : Nat) (host : HostId) :
    (startMany site missing plan).loadOf host + plan.startsOn host =
      plan.loadOf host + (startMany site missing plan).startsOn host := by
  induction missing generalizing plan with
  | zero => rfl
  | succ missing ih =>
      rw [startMany]
      split
      · rfl
      · rename_i chosen _
        have run := ih (plan.startOn site.target.requirements chosen)
        rw [loadOf_startOn, startsOn_startOn] at run
        omega

/-- As many starts as a site has hosts reach every host. -/
theorem startsOn_startMany_pos {site : Site} {missing : Nat} (enough : site.hosts.length ≤ missing)
    {host : HostId} (onSite : host ∈ site.hosts) :
    0 < (startMany site missing (.initial [])).startsOn host := by
  have noneIdle : (startMany site missing (.initial [])).idle site = [] := by
    apply List.eq_nil_of_length_eq_zero
    have left := length_idle_startMany site missing (.initial [])
    have bound : ((Plan.initial []).idle site).length ≤ site.hosts.length :=
      List.length_filter_le _ _
    omega
  have carried : (startMany site missing (.initial [])).loadOf host =
      (startMany site missing (.initial [])).startsOn host :=
    ((Plan.initial []).loadOf_startMany site missing host).trans (Nat.zero_add _)
  rw [← carried]
  apply Nat.pos_of_ne_zero
  intro noLoad
  have isIdle : host ∈ (startMany site missing (.initial [])).idle site :=
    List.mem_filter.mpr ⟨onSite, decide_eq_true noLoad⟩
  rw [noneIdle] at isIdle
  cases isIdle

end Plan

/-- A site of its own gets all that is asked for. -/
theorem allocate_singleton (total : UInt32) {site : Site} (weight : site.target.weight = 1)
    (nonempty : site.hosts ≠ []) : allocate total [site] = [(site, total.toNat)] := by
  have whole : Allocation.largestRemainder total [1] = [total] := by
    simp [Allocation.largestRemainder, Allocation.effectiveWeights, Allocation.sumOf,
      Allocation.shares, Allocation.wholePart, Allocation.favoured, Allocation.leftover]
  have hasHosts : site.hosts.isEmpty = false := by simpa using nonempty
  have weights : (([site].filter fun site => !site.hosts.isEmpty).map
      fun site => site.target.weight) = [1] := by
    simp [hasHosts, weight]
  rw [allocate, weights, whole, assignShares, hasHosts]
  rfl

end Reconciler.Spread
