import Mathlib.Data.List.Flatten
import Reconciler.Proofs.Placement.Ages

/-!
# Leaving alone what is in place

A component is in place if its instances can be assigned to the targets of its scaler, so that each
target has its share on hosts that it accepts and no instance is left over. Targets claim in turn
and do not look at what the others need, so that an instance can be claimed by a target that had
another one to choose. This does no harm where each target accepts either none of the hosts of a
later one or all its hosts are among these: what a target can claim then depends on how many
instances the earlier ones have claimed, but not on which.
-/

namespace Reconciler.Spread

/-- What each of some sites has, by number. -/
def sizes (assigned : List (Site × List PlacedInstance)) : List (Site × Nat) :=
  assigned.map fun entry => (entry.1, entry.2.length)

/--
Whether instances can be assigned to sites, each to a site with its host, so that every site gets as
many as it wants and no instance is left over.
-/
def SharedOut (shares : List (Site × Nat)) (instances : List PlacedInstance) : Prop :=
  ∃ assigned : List (Site × List PlacedInstance), sizes assigned = shares ∧
    (∀ entry ∈ assigned, ∀ placed ∈ entry.2, placed.host ∈ entry.1.hosts) ∧
      (assigned.flatMap Prod.snd).Perm instances

/--
Whether of any two sites that want something the hosts of the first are apart from those of the
second, or all among them.
-/
def Graded (shares : List (Site × Nat)) : Prop :=
  shares.Pairwise fun first second => 0 < first.2 → 0 < second.2 →
    first.1.hosts.Disjoint second.1.hosts ∨ first.1.hosts ⊆ second.1.hosts

/-- What those sites want together that pass a test. -/
def wantedBy (test : Site → Bool) (shares : List (Site × Nat)) : Nat :=
  ((shares.filter fun share => test share.1).map Prod.snd).sum

/--
Whether each site that wants something has enough instances on its hosts, also for the sites that
come before it and have no other hosts.
-/
def Supplied (shares : List (Site × Nat)) (instances : List PlacedInstance) : Prop :=
  ∀ before share after, shares = before ++ share :: after → 0 < share.2 →
    wantedBy (fun other => other.hosts ⊆ share.1.hosts) before + share.2 ≤
      (instances.filter share.1.holds).length

section Sharing

variable {test : Site → Bool} {shares : List (Site × Nat)} {instances : List PlacedInstance}

theorem wantedBy_cons (share : Site × Nat) :
    wantedBy test (share :: shares) =
      (if test share.1 then share.2 else 0) + wantedBy test shares := by
  rw [wantedBy, List.filter_cons]
  by_cases passes : test share.1
  · simp [passes, wantedBy]
  · simp [passes, wantedBy]

theorem wantedBy_append (before after : List (Site × Nat)) :
    wantedBy test (before ++ after) = wantedBy test before + wantedBy test after := by
  rw [wantedBy, List.filter_append, List.map_append, List.sum_append, wantedBy, wantedBy]

/-- The sites that pass a test have together as many instances as they want. -/
theorem length_assigned (test : Site → Bool) (assigned : List (Site × List PlacedInstance)) :
    ((assigned.filter fun entry => test entry.1).flatMap Prod.snd).length =
      wantedBy test (sizes assigned) := by
  rw [List.length_flatMap, wantedBy, sizes, List.filter_map, List.map_map]
  rfl

theorem SharedOut.length_eq (shared : SharedOut shares instances) :
    (shares.map Prod.snd).sum = instances.length := by
  rcases shared with ⟨assigned, rfl, _, perm⟩
  rw [← perm.length_eq, List.length_flatMap, sizes, List.map_map]
  rfl

theorem SharedOut.supplied (shared : SharedOut shares instances) : Supplied shares instances := by
  rcases shared with ⟨assigned, rfl, fits, perm⟩
  intro before share after parts _
  rw [sizes, List.map_eq_append_iff] at parts
  rcases parts with ⟨assignedBefore, assignedRest, rfl, rfl, parts⟩
  rw [List.map_eq_cons_iff] at parts
  rcases parts with ⟨⟨site, mine⟩, assignedAfter, rfl, rfl, rfl⟩
  -- All that is assigned to these sites is on hosts of the last one.
  let others := assignedBefore.filter fun entry => decide (entry.1.hosts ⊆ site.hosts)
  have sublist : (others ++ [(site, mine)]).Sublist
      (assignedBefore ++ (site, mine) :: assignedAfter) :=
    List.filter_sublist.append (List.singleton_sublist.mpr List.mem_cons_self)
  have onSite : ∀ placed ∈ (others ++ [(site, mine)]).flatMap Prod.snd,
      site.holds placed = true := by
    intro placed member
    rcases List.mem_flatMap.mp member with ⟨entry, entryMember, isAssigned⟩
    have onEntry := fits entry (sublist.subset entryMember) placed isAssigned
    rw [Site.holds_iff]
    rcases List.mem_append.mp entryMember with inBefore | last
    · exact of_decide_eq_true (List.mem_filter.mp inBefore).2 onEntry
    · obtain rfl := List.mem_singleton.mp last
      exact onEntry
  have within : ((others ++ [(site, mine)]).flatMap Prod.snd).Subperm instances :=
    (sublist.flatMap Prod.snd).subperm.trans perm.subperm
  have bound := (within.filter site.holds).length_le
  rw [List.filter_eq_self.mpr onSite, List.flatMap_append, List.length_append,
    length_assigned fun other => other.hosts ⊆ site.hosts] at bound
  simpa [sizes] using bound

end Sharing

namespace Plan

section Serving

variable (plan : Plan) (site : Site) (wanted : Nat)

/-- A site takes no more than it wants. -/
theorem length_filter_unclaimed_le (nodup : plan.unclaimed.Nodup) (test : PlacedInstance → Bool) :
    (plan.unclaimed.filter test).length ≤
      ((plan.serve site wanted).unclaimed.filter test).length + wanted := by
  have few := site.length_newest_le wanted plan.unclaimed
  have covered : plan.unclaimed.filter test ⊆
      (plan.serve site wanted).unclaimed.filter test ++ site.newest wanted plan.unclaimed := by
    intro placed member
    rcases List.mem_filter.mp member with ⟨unclaimed, passes⟩
    rw [List.mem_append, List.mem_filter, serve_unclaimed, List.mem_filter]
    by_cases taken : placed ∈ site.newest wanted plan.unclaimed
    · exact Or.inr taken
    · exact Or.inl ⟨⟨unclaimed, by simpa using taken⟩, passes⟩
  have bound := (List.subperm_of_subset (nodup.filter _) covered).length_le
  rw [List.length_append] at bound
  omega

end Serving

section ServingAll

variable {plan : Plan} {shares : List (Site × Nat)}

theorem started_le_started_serveAll
    (placeable : ∀ share ∈ shares, share.1.hosts = [] → share.2 = 0) :
    plan.started ≤ (plan.serveAll shares).started := by
  induction shares generalizing plan with
  | nil => exact le_rfl
  | cons share rest ih =>
      rcases List.forall_mem_cons.mp placeable with ⟨here, inRest⟩
      refine le_trans ?_ (ih inRest)
      rw [started_serve _ _ _ here]
      exact Nat.le_add_right _ _

/-- Sites that are graded find what they want, if they are supplied. -/
theorem serveAll_starts_of_supplied (graded : Graded shares)
    (supplied : Supplied shares plan.unclaimed) (nodup : plan.unclaimed.Nodup) :
    (plan.serveAll shares).starts = plan.starts := by
  induction shares generalizing plan with
  | nil => rfl
  | cons head rest ih =>
      rcases head with ⟨site, wanted⟩
      rcases List.pairwise_cons.mp graded with ⟨headGraded, restGraded⟩
      have enough : wanted ≤ (site.newest wanted plan.unclaimed).length := by
        rw [Site.length_newest]
        refine Nat.le_min.mpr ⟨le_rfl, ?_⟩
        by_cases wants : 0 < wanted
        · have own := supplied [] (site, wanted) rest rfl wants
          exact le_trans (Nat.le_add_left _ _) own
        · omega
      have stillNodup : (plan.serve site wanted).unclaimed.Nodup := by
        rw [serve_unclaimed]
        exact nodup.filter _
      rw [serveAll_cons, ih restGraded ?_ stillNodup, serve_starts_of_enough _ _ _ enough]
      -- What the first site takes from a later one, the later one has to spare.
      intro before share after parts wants
      have own := supplied ((site, wanted) :: before) share after (by rw [parts]; rfl) wants
      have inRest : share ∈ rest := by simp [parts]
      have loss := plan.length_filter_unclaimed_le site wanted nodup share.1.holds
      rw [wantedBy_cons] at own
      by_cases headWants : 0 < wanted
      · rcases headGraded share inRest headWants wants with apart | within
        · rw [plan.filter_unclaimed_serve site wanted apart]
          omega
        · rw [if_pos (decide_eq_true within)] at own
          omega
      · omega

/-- If nothing is started, each site has claimed what it wants. -/
theorem claims_of_started_eq (placeable : ∀ share ∈ shares, share.1.hosts = [] → share.2 = 0)
    (noStarts : (plan.serveAll shares).started = plan.started) :
    sizes (plan.claims shares) = shares := by
  induction shares generalizing plan with
  | nil => rfl
  | cons head rest ih =>
      rcases head with ⟨site, wanted⟩
      rcases List.forall_mem_cons.mp placeable with ⟨here, inRest⟩
      have served := plan.started_serve site wanted here
      have later : (plan.serve site wanted).started ≤ _ := started_le_started_serveAll inRest
      have few := site.length_newest_le wanted plan.unclaimed
      rw [serveAll_cons] at noStarts
      rw [claims_cons, sizes, List.map_cons, ← sizes, ih inRest (by omega)]
      have all : (site.newest wanted plan.unclaimed).length = wanted := by omega
      rw [all]

theorem host_mem_of_mem_claims {site : Site} {claimed : List PlacedInstance}
    (claims : (site, claimed) ∈ plan.claims shares) {placed : PlacedInstance}
    (isClaimed : placed ∈ claimed) : placed.host ∈ site.hosts := by
  induction shares generalizing plan with
  | nil => cases claims
  | cons share rest ih =>
      rw [claims_cons, List.mem_cons] at claims
      rcases claims with same | inRest
      · rw [Prod.mk.injEq] at same
        rcases same with ⟨rfl, rfl⟩
        exact (Site.mem_of_mem_newest isClaimed).2
      · exact ih inRest

/-- If nothing is started and nothing left over, what the sites claim shares the instances out. -/
theorem sharedOut_of_serveAll (nodup : plan.unclaimed.Nodup)
    (placeable : ∀ share ∈ shares, share.1.hosts = [] → share.2 = 0)
    (noStarts : (plan.serveAll shares).started = plan.started)
    (noneLeft : (plan.serveAll shares).unclaimed = []) : SharedOut shares plan.unclaimed := by
  have perm : ((plan.serveAll shares).claimed ++ _).Perm _ :=
    claimed_append_unclaimed_serveAll nodup
  rw [noneLeft, List.append_nil, claimed_serveAll, List.perm_append_left_iff] at perm
  exact ⟨plan.claims shares, claims_of_started_eq placeable noStarts,
    fun claim member placed => host_mem_of_mem_claims member, perm⟩

end ServingAll

end Plan

section Evaluation

/--
Whether a component is in place: all its instances are current, and they can be assigned one to one
to the targets of its scaler so that each target gets its share on hosts that it accepts.
-/
def InPlace (app : AppName) (id : ComponentId) (component : Component) (scaler : SpreadScaler)
    (observed : ObservedState) : Prop :=
  (∀ placed ∈ pool app id observed, isCurrent component placed = true) ∧
    SharedOut (allocate scaler.instances (sitesOf scaler observed)) (pool app id observed)

variable {app : AppName} {id : ComponentId} {component : Component} {scaler : SpreadScaler}
  {observed : ObservedState}

/-- A scaler asks for nothing exactly if all instances are current, claimed, and enough. -/
theorem evaluate_eq_nil_iff :
    evaluate app id component scaler observed = [] ↔
      (∀ placed ∈ pool app id observed, isCurrent component placed = true) ∧
        (plan app id component scaler observed).unclaimed = [] ∧
        (plan app id component scaler observed).starts = ∅ := by
  have starts : startActions id component (plan app id component scaler observed) = [] ↔
      (plan app id component scaler observed).starts = ∅ := by
    rw [startActions, List.map_eq_nil_iff]
    exact ⟨fun nothing => SortedMap.ext nothing, fun nothing => nothing ▸ rfl⟩
  have stops : PlacedInstance.stopActions id (stopped app id component scaler observed) = [] ↔
      stopped app id component scaler observed = [] := by
    constructor
    · intro nothing
      have places := PlacedInstance.stopActions_places_perm id
        (stopped app id component scaler observed)
      rw [nothing, List.flatMap_nil] at places
      exact List.map_eq_nil_iff.mp places.symm.eq_nil
    · exact fun nothing => nothing ▸ PlacedInstance.stopActions_nil id
  have surplus : stopped app id component scaler observed = [] ↔
      (∀ placed ∈ pool app id observed, isCurrent component placed = true) ∧
        (plan app id component scaler observed).unclaimed = [] := by
    constructor
    · intro nothing
      have notStopped : ∀ placed, placed ∉ stopped app id component scaler observed :=
        fun placed member => List.not_mem_nil (nothing ▸ member)
      simp only [mem_stopped_iff, not_and, not_or, Bool.not_eq_false] at notStopped
      refine ⟨fun placed inPool => (notStopped placed inPool).1, ?_⟩
      refine List.eq_nil_iff_forall_not_mem.mpr fun placed unclaimed => ?_
      have inCurrent : placed ∈ current app id component observed :=
        (Plan.unclaimed_serveAll_sublist _ _).subset unclaimed
      exact (notStopped placed (List.mem_of_mem_filter inCurrent)).2 unclaimed
    · rintro ⟨allCurrent, noneLeft⟩
      refine List.eq_nil_iff_forall_not_mem.mpr fun placed isStopped => ?_
      rcases mem_stopped_iff.mp isStopped with ⟨inPool, outdated | unclaimed⟩
      · exact Bool.false_ne_true (outdated.symm.trans (allCurrent placed inPool))
      · exact List.not_mem_nil (noneLeft ▸ unclaimed)
  rw [evaluate, List.append_eq_nil_iff, starts, ← and_assoc, ← surplus, ← stops, and_comm]
  rfl

theorem started_eq_zero_of_starts {plan : Plan} (noStarts : plan.starts = ∅) :
    plan.started = 0 := by
  rw [Plan.started, noStarts]
  rfl

/-- Whatever is left alone is in place. -/
theorem inPlace_of_evaluate (nothing : evaluate app id component scaler observed = []) :
    InPlace app id component scaler observed := by
  rcases evaluate_eq_nil_iff.mp nothing with ⟨allCurrent, noneLeft, noStarts⟩
  have all : current app id component observed = pool app id observed :=
    List.filter_eq_self.mpr allCurrent
  refine ⟨allCurrent, all ▸ ?_⟩
  have nodup : (current app id component observed).Nodup := (nodup_pool app id observed).filter _
  exact Plan.sharedOut_of_serveAll nodup (fun share member => (allocate_snd member).1)
    (started_eq_zero_of_starts noStarts) noneLeft

/-- Where sites are graded, a component that is in place is left alone. -/
theorem evaluate_of_inPlace
    (graded : Graded (allocate scaler.instances (sitesOf scaler observed)))
    (inPlace : InPlace app id component scaler observed) :
    evaluate app id component scaler observed = [] := by
  rcases inPlace with ⟨allCurrent, shared⟩
  have all : current app id component observed = pool app id observed :=
    List.filter_eq_self.mpr allCurrent
  have noStarts : (plan app id component scaler observed).starts = ∅ := by
    rw [plan_eq, all]
    exact Plan.serveAll_starts_of_supplied graded shared.supplied (nodup_pool app id observed)
  refine evaluate_eq_nil_iff.mpr ⟨allCurrent, ?_, noStarts⟩
  -- As nothing is started, the sites have claimed as many instances as there are.
  have count : (plan app id component scaler observed).claimed.length + _ = _ :=
    length_claimed_add_started_plan
  have parts : ((plan app id component scaler observed).claimed ++ _).Perm _ :=
    claimed_append_unclaimed_plan
  have lengths := parts.length_eq
  rw [started_eq_zero_of_starts noStarts, shared.length_eq] at count
  rw [List.length_append, all] at lengths
  exact List.eq_nil_of_length_eq_zero (by omega)

end Evaluation

end Reconciler.Spread
