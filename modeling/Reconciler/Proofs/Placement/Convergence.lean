import Reconciler.Proofs.Placement.Effects
import Reconciler.Proofs.Placement.Scope

/-!
# Convergence in one round

When everything that evaluation asks for has been carried out, evaluation asks for nothing more.
What a scaler keeps and what is started for it then make up what its sites want, no orphan is left,
and the links are those of the manifest.
-/

namespace Reconciler

namespace Spread

variable {app : AppName} {id : ComponentId} {component : Component} {scaler : SpreadScaler}
  {observed : ObservedState}

theorem Site.length_filter_holds {site : Site} (nodup : site.hosts.Nodup)
    (instances : List PlacedInstance) :
    (instances.filter site.holds).length =
      (site.hosts.map fun host => instances.countP fun placed => placed.host = host).sum := by
  have complete : ∀ placed ∈ instances.filter site.holds, placed.host ∈ site.hosts :=
    fun placed member => holds_iff.mp (List.mem_filter.mp member).2
  rw [← (SortedMap.flatMap_filter_perm nodup complete).length_eq, List.length_flatMap]
  refine congrArg List.sum (List.map_congr_left fun host onSite => ?_)
  rw [List.filter_filter, List.countP_eq_length_filter]
  refine congrArg List.length (List.filter_congr fun placed _ => ?_)
  by_cases here : placed.host = host
  · simp [here, Site.holds, onSite]
  · simp [here]

/-- A scaler asks for nothing if all instances are current, on sites that have what they want. -/
theorem evaluate_eq_nil (apart : SitesApart scaler observed)
    (allCurrent : ∀ placed ∈ pool app id observed, isCurrent component placed = true)
    (onSites : ∀ placed ∈ pool app id observed, ∃ site ∈ sitesOf scaler observed,
      placed.host ∈ site.hosts)
    (enough : ∀ share ∈ allocate scaler.instances (sitesOf scaler observed),
      ((pool app id observed).filter share.1.holds).length = share.2) :
    evaluate app id component scaler observed = [] := by
  have all : current app id component observed = pool app id observed :=
    List.filter_eq_self.mpr allCurrent
  have everything : ∀ share ∈ allocate scaler.instances (sitesOf scaler observed),
      share.1.newest share.2 (pool app id observed) =
        (pool app id observed).filter share.1.holds :=
    fun share member => Site.newest_of_length_le (enough share member).le
  have noStarts : (plan app id component scaler observed).starts = ∅ := by
    rw [plan_eq, all, Plan.serveAll_starts_of_enough (apart_allocate apart)]
    · rfl
    · intro share member
      exact (congrArg List.length (everything share member) ▸ enough share member).ge
  have noSurplus : surplus component (plan app id component scaler observed)
      (pool app id observed) = [] := by
    refine List.filter_eq_nil_iff.mpr fun placed member => ?_
    have claimed : placed ∉ (plan app id component scaler observed).unclaimed := by
      rw [mem_unclaimed_plan_iff apart, all]
      rintro ⟨_, unclaimed⟩
      rcases onSites placed member with ⟨site, siteMember, onSite⟩
      obtain ⟨share, shareMember, rfl⟩ : ∃ share ∈ allocate scaler.instances _, share.1 = site :=
        exists_mem_allocate siteMember
      refine unclaimed share shareMember ?_
      rw [everything share shareMember]
      exact List.mem_filter.mpr ⟨member, Site.holds_iff.mpr onSite⟩
    simp [allCurrent placed member, claimed]
  rw [evaluate, startActions, noStarts, noSurplus, PlacedInstance.stopActions_nil]
  rfl

/-- An instance is kept for a scaler if it is current and a site takes it. -/
theorem not_mem_stopped_iff (apart : SitesApart scaler observed) {placed : PlacedInstance}
    (inPool : placed ∈ pool app id observed) :
    placed ∉ stopped app id component scaler observed ↔
      ∃ share ∈ allocate scaler.instances (sitesOf scaler observed),
        placed ∈ share.1.newest share.2 (current app id component observed) := by
  have currentIff : placed ∈ current app id component observed ↔
      isCurrent component placed = true := by
    rw [current, List.mem_filter, and_iff_right inPool]
  rw [stopped, surplus, List.mem_filter, and_iff_right inPool, Bool.or_eq_true, not_or,
    List.contains_iff_mem, mem_unclaimed_plan_iff apart, currentIff]
  constructor
  · rintro ⟨isCurrent, notUnclaimed⟩
    by_contra nowhere
    refine notUnclaimed ⟨by simpa using isCurrent, fun share member taken => ?_⟩
    exact nowhere ⟨share, member, taken⟩
  · rintro ⟨share, member, taken⟩
    have isCurrent := currentIff.mp (Site.mem_of_mem_newest taken).1
    exact ⟨by simp [isCurrent], fun unclaimed => unclaimed.2 share member taken⟩

/-- What a site takes of the instances of a component are the kept ones on its hosts. -/
theorem newest_perm (apart : SitesApart scaler observed) {share : Site × Nat}
    (member : share ∈ allocate scaler.instances (sitesOf scaler observed)) :
    (((pool app id observed).filter fun placed =>
        placed ∉ stopped app id component scaler observed).filter share.1.holds).Perm
      (share.1.newest share.2 (current app id component observed)) := by
  have nodup := nodup_pool app id observed
  have newestNodup : (share.1.newest share.2 (current app id component observed)).Nodup :=
    ((nodup.filter _).filter _).sublist (Site.newest_sublist _ _ _)
  refine (List.perm_ext_iff_of_nodup ((nodup.filter _).filter _) newestNodup).mpr fun placed => ?_
  rw [List.mem_filter, List.mem_filter, Site.holds_iff, decide_eq_true_iff]
  constructor
  · rintro ⟨⟨inPool, kept⟩, onSite⟩
    rcases (not_mem_stopped_iff apart inPool).mp kept with ⟨other, otherMember, taken⟩
    have same : share = other := (apart_allocate apart).eq_of_mem_hosts member otherMember onSite
      (Site.mem_of_mem_newest taken).2
    exact same ▸ taken
  · intro taken
    have inPool := List.mem_of_mem_filter (Site.mem_of_mem_newest taken).1
    exact ⟨⟨inPool, (not_mem_stopped_iff apart inPool).mpr ⟨share, member, taken⟩⟩,
      (Site.mem_of_mem_newest taken).2⟩

end Spread

namespace Manifest

open RequiredAction (CarriedOut)

variable {manifest : Manifest} {state : ObservedState} {events : List LatticeEvent}

/-- Of a scaled component is stopped what its scaler has no use for. -/
theorem mem_stopped_iff_of_mem_pool (valid : manifest.isValid = true) {component : Component}
    (member : component ∈ manifest.components) {scaler : SpreadScaler}
    (scaled : component.scalers = [scaler]) {placed : PlacedInstance}
    (inPool : placed ∈ Spread.pool manifest.name (manifest.componentId component) state) :
    placed ∈ manifest.stopped state ↔
      placed ∈ Spread.stopped manifest.name (manifest.componentId component) component scaler
        state := by
  have ofComponent := (Spread.mem_pool_iff.mp inPool).2
  rw [mem_stopped_iff]
  constructor
  · rintro (⟨owner, ownerMember, other, otherMember, stopped⟩ | ⟨_, undeclared⟩)
    · have ofOwner := (Spread.mem_pool_iff.mp (Spread.mem_pool_of_mem_stopped stopped)).2
      obtain rfl : owner = component :=
        eq_of_componentId_eq valid ownerMember member (ofOwner.symm.trans ofComponent)
      rw [scaled, List.mem_singleton] at otherMember
      exact otherMember ▸ stopped
    · exact absurd (List.mem_map_of_mem member) (ofComponent ▸ undeclared)
  · exact fun stopped => Or.inl ⟨component, member, scaler, by simp [scaled], stopped⟩

section CarriedOut

variable (carriedOut : CarriedOut manifest.name (evaluate manifest state) state events)

include carriedOut

/-- The instances of the application are then those that were started and those that were kept. -/
theorem mem_managedInstances_afterAll_iff {placed : PlacedInstance} :
    placed ∈ (state.afterAll events).managedInstances manifest.name ↔
      placed ∈ events.filterMap LatticeEvent.started? ∨
        placed ∈ state.managedInstances manifest.name ∧ placed ∉ manifest.stopped state := by
  have named : ∀ place, place ∈ (evaluate manifest state).flatMap RequiredAction.stoppedPlaces ↔
      ∃ placed ∈ manifest.stopped state, placed.place = place := by
    intro place
    rw [(evaluate_places_perm manifest state).mem_iff, List.mem_map]
  have running : ∀ host id,
      (host, id) ∈ (evaluate manifest state).flatMap RequiredAction.stoppedPlaces →
        state.instance? host id ≠ none := by
    intro host id member
    rcases (named _).mp member with ⟨placed, isStopped, place⟩
    obtain ⟨rfl, rfl⟩ : placed.host = host ∧ placed.id = id := Prod.mk.inj place
    have managed := managed_of_mem_stopped isStopped
    simp [(ObservedState.mem_managedInstances_iff.mp managed).1]
  have startedManaged : ∀ placed ∈ events.filterMap LatticeEvent.started?,
      placed.record.isManagedBy manifest.name = true := by
    intro placed member
    rcases List.mem_filterMap.mp member with ⟨event, eventMember, started⟩
    rcases carriedOut.exists_isEffect eventMember with ⟨action, _, effect⟩
    exact (effect.of_started? started).1
  rw [ObservedState.managedInstances, List.mem_filter, carriedOut.mem_placedInstances_iff running,
    ObservedState.managedInstances, List.mem_filter]
  constructor
  · rintro ⟨started | ⟨before, notNamed⟩, managed⟩
    · exact Or.inl started
    · refine Or.inr ⟨⟨before, managed⟩, fun isStopped => notNamed ((named _).mpr ?_)⟩
      exact ⟨placed, isStopped, rfl⟩
  · rintro (started | ⟨⟨before, managed⟩, kept⟩)
    · exact ⟨Or.inl started, startedManaged placed started⟩
    · refine ⟨Or.inr ⟨before, fun isNamed => ?_⟩, managed⟩
      rcases (named _).mp isNamed with ⟨other, isStopped, place⟩
      have same : other = placed := ObservedState.eq_of_place_eq (managed_of_mem_stopped isStopped)
        (List.mem_filter.mpr ⟨before, managed⟩) place
      exact kept (same ▸ isStopped)

theorem sitesOf_afterAll (scaler : SpreadScaler) :
    Spread.sitesOf scaler (state.afterAll events) = Spread.sitesOf scaler state := by
  apply Spread.sitesOf_congr
  exact carriedOut.inTurn.labels_afterAll carriedOut.isLocal

/-- The pool of a component is then what was kept of it and what was started of it. -/
theorem pool_afterAll_perm (id : ComponentId) :
    (Spread.pool manifest.name id (state.afterAll events)).Perm
      (((Spread.pool manifest.name id state).filter fun placed =>
          placed ∉ manifest.stopped state) ++
        (events.filterMap LatticeEvent.started?).filter fun placed =>
          placed.record.component = id) := by
  have startedNodup : (events.filterMap LatticeEvent.started?).Nodup :=
    List.Nodup.of_map _ carriedOut.once
  have apart : List.Disjoint
      ((Spread.pool manifest.name id state).filter fun placed => placed ∉ manifest.stopped state)
      ((events.filterMap LatticeEvent.started?).filter fun placed =>
        placed.record.component = id) := by
    intro placed kept started
    have before := (Spread.mem_pool_iff.mp (List.mem_of_mem_filter kept)).1
    have absent := carriedOut.fresh placed (List.mem_of_mem_filter started)
    cases absent.symm.trans (ObservedState.mem_managedInstances_iff.mp before).1
  refine (List.perm_ext_iff_of_nodup (Spread.nodup_pool _ _ _) ?_).mpr fun placed => ?_
  · exact List.Nodup.append ((Spread.nodup_pool _ _ _).filter _) (startedNodup.filter _) apart
  · rw [Spread.mem_pool_iff, mem_managedInstances_afterAll_iff carriedOut, List.mem_append,
      List.mem_filter, List.mem_filter, Spread.mem_pool_iff, decide_eq_true_iff, decide_eq_true_iff]
    tauto

/-- Each site then has what it wants. -/
theorem length_filter_pool_afterAll (valid : manifest.isValid = true) {component : Component}
    (member : component ∈ manifest.components) {scaler : SpreadScaler}
    (scaled : component.scalers = [scaler]) (apart : Spread.SitesApart scaler state)
    {share : Spread.Site × Nat}
    (shareMember : share ∈ Spread.allocate scaler.instances (Spread.sitesOf scaler state)) :
    ((Spread.pool manifest.name (manifest.componentId component)
      (state.afterAll events)).filter share.1.holds).length = share.2 := by
  let id := manifest.componentId component
  let newest := share.1.newest share.2 (Spread.current manifest.name id component state)
  have siteMember := Spread.site_mem_of_mem_allocate shareMember
  have kept : (((Spread.pool manifest.name id state).filter fun placed =>
      placed ∉ manifest.stopped state).filter share.1.holds).length = newest.length := by
    have sameKept : ((Spread.pool manifest.name id state).filter fun placed =>
          placed ∉ manifest.stopped state) =
        (Spread.pool manifest.name id state).filter fun placed =>
          placed ∉ Spread.stopped manifest.name id component scaler state :=
      List.filter_congr fun placed inPool => decide_eq_decide.mpr
        (not_congr (mem_stopped_iff_of_mem_pool valid member scaled inPool))
    rw [sameKept]
    exact (Spread.newest_perm apart shareMember).length_eq
  have started : (((events.filterMap LatticeEvent.started?).filter fun placed =>
        placed.record.component = id).filter share.1.holds).length =
      (Spread.plan manifest.name id component scaler state).startsAt share.1.hosts := by
    rw [Spread.Site.length_filter_holds (Spread.nodup_hosts_of_mem_sitesOf siteMember)]
    refine congrArg List.sum (List.map_congr_left fun host _ => ?_)
    rw [← sum_startsOf_evaluate valid member scaled apart host, ← carriedOut.countP_started,
      List.countP_filter]
    exact List.countP_congr fun placed _ => by simp [and_comm, id]
  rw [((pool_afterAll_perm carriedOut id).filter _).length_eq, List.filter_append,
    List.length_append, kept, started]
  have enough : newest.length ≤ share.2 := Spread.Site.length_newest_le _ _ _
  -- What is lacking was started, unless there is nowhere to start it and nothing is wanted.
  by_cases noHosts : share.1.hosts = []
  · have nothing := (Spread.allocate_snd shareMember).1 noHosts
    rw [Spread.Plan.startsAt, noHosts, List.map_nil, List.sum_nil]
    omega
  · rw [Spread.startsAt_plan apart shareMember noHosts]
    exact Nat.add_sub_cancel' enough

theorem exists_component_of_started {placed : PlacedInstance}
    (member : placed ∈ events.filterMap LatticeEvent.started?) :
    ∃ component ∈ manifest.components,
      placed.record.component = manifest.componentId component ∧
        placed.record.imageRef = component.imageRef := by
  rcases List.mem_filterMap.mp member with ⟨event, eventMember, started⟩
  rcases carriedOut.exists_isEffect eventMember with ⟨action, actionMember, effect⟩
  rcases (effect.of_started? started).2 with ⟨_, _, _, rfl⟩
  rcases exists_component_of_mem_evaluate actionMember with
    ⟨component, componentMember, _, _, sameId, sameImage⟩
  exact ⟨component, componentMember, sameId, sameImage⟩

/-- What was started of a scaled component runs on a site of its scaler. -/
theorem exists_site_of_started (valid : manifest.isValid = true) {component : Component}
    (member : component ∈ manifest.components) {scaler : SpreadScaler}
    (scaled : component.scalers = [scaler]) (apart : Spread.SitesApart scaler state)
    {placed : PlacedInstance} (started : placed ∈ events.filterMap LatticeEvent.started?)
    (ofComponent : placed.record.component = manifest.componentId component) :
    ∃ site ∈ Spread.sitesOf scaler state, placed.host ∈ site.hosts := by
  by_contra nowhere
  have none : (events.filterMap LatticeEvent.started?).countP (fun other =>
      other.record.component = manifest.componentId component ∧ other.host = placed.host) = 0 := by
    rw [carriedOut.countP_started, sum_startsOf_evaluate valid member scaled apart]
    exact Spread.startsOn_plan_eq_zero fun site siteMember onSite =>
      nowhere ⟨site, siteMember, onSite⟩
  exact List.countP_eq_zero.mp none placed started (by simp [ofComponent])

theorem spread_evaluate_afterAll (valid : manifest.isValid = true) {component : Component}
    (member : component ∈ manifest.components) {scaler : SpreadScaler}
    (scaled : component.scalers = [scaler]) (apart : Spread.SitesApart scaler state) :
    Spread.evaluate manifest.name (manifest.componentId component) component scaler
      (state.afterAll events) = [] := by
  have sameSites := sitesOf_afterAll carriedOut scaler
  -- An instance of the component was started or is one that a site had taken.
  have cases : ∀ placed ∈ Spread.pool manifest.name (manifest.componentId component)
      (state.afterAll events),
      (∃ share ∈ Spread.allocate scaler.instances (Spread.sitesOf scaler state),
        placed ∈ share.1.newest share.2
          (Spread.current manifest.name (manifest.componentId component) component state)) ∨
      placed ∈ events.filterMap LatticeEvent.started? ∧
        placed.record.component = manifest.componentId component := by
    intro placed inPool
    rw [(pool_afterAll_perm carriedOut _).mem_iff, List.mem_append, List.mem_filter,
      List.mem_filter, decide_eq_true_iff, decide_eq_true_iff] at inPool
    refine inPool.imp_left fun kept => (Spread.not_mem_stopped_iff apart kept.1).mp ?_
    exact (not_congr (mem_stopped_iff_of_mem_pool valid member scaled kept.1)).mp kept.2
  refine Spread.evaluate_eq_nil (by rwa [Spread.SitesApart, sameSites]) ?_ ?_ ?_
  · intro placed inPool
    rcases cases placed inPool with ⟨share, _, taken⟩ | ⟨started, ofComponent⟩
    · exact (List.mem_filter.mp (Spread.Site.mem_of_mem_newest taken).1).2
    · rcases exists_component_of_started carriedOut started with
        ⟨owner, ownerMember, ofOwner, sameImage⟩
      obtain rfl : owner = component :=
        eq_of_componentId_eq valid ownerMember member (ofOwner.symm.trans ofComponent)
      exact beq_iff_eq.mpr sameImage
  · intro placed inPool
    rw [sameSites]
    rcases cases placed inPool with ⟨share, shareMember, taken⟩ | ⟨started, ofComponent⟩
    · exact ⟨share.1, Spread.site_mem_of_mem_allocate shareMember,
        (Spread.Site.mem_of_mem_newest taken).2⟩
    · exact exists_site_of_started carriedOut valid member scaled apart started ofComponent
  · intro share shareMember
    rw [sameSites] at shareMember
    exact length_filter_pool_afterAll carriedOut valid member scaled apart shareMember

theorem orphans_afterAll : manifest.orphans (state.afterAll events) = [] := by
  refine List.filter_eq_nil_iff.mpr fun placed managed => ?_
  rw [Bool.not_eq_true', Bool.not_eq_false, List.contains_iff_mem]
  rcases (mem_managedInstances_afterAll_iff carriedOut).mp managed with started | ⟨before, kept⟩
  · rcases exists_component_of_started carriedOut started with ⟨component, member, ofComponent, _⟩
    exact ofComponent ▸ List.mem_map_of_mem member
  · -- An orphan from before was stopped.
    by_contra undeclared
    exact kept (mem_stopped_iff.mpr (Or.inr ⟨before, undeclared⟩))

/-- What was written about a link is what the manifest asks for under its key. -/
theorem eq_desiredLink_of_linkWrite? (reachable : state.Reachable) {event : LatticeEvent}
    (member : event ∈ events) {key : LinkKey} {written : Option ActiveLink}
    (write : event.linkWrite? = some (key, written)) :
    written = manifest.desiredLinks.find? key := by
  rcases carriedOut.exists_isEffect member with ⟨action, actionMember, effect⟩
  rcases effect.of_linkWrite? write with ⟨link, rfl, rfl, rfl⟩ | ⟨rfl, rfl⟩
  · exact (addLink_mem_evaluate_iff.mp actionMember).1.symm
  · have undeclared := ((removeLink_mem_evaluate_iff reachable).mp actionMember).2
    rw [SortedMap.contains_eq_isSome, Option.isSome_eq_false_iff, Option.isNone_iff_eq_none]
      at undeclared
    exact undeclared.symm

/-- A link that some event is about is then as the manifest says; all others are as they were. -/
theorem link?_afterAll_cases (reachable : state.Reachable) (key : LinkKey) :
    (state.afterAll events).link? key = manifest.desiredLinks.find? key ∨
      (∀ event ∈ events, ∀ written, event.linkWrite? ≠ some (key, written)) ∧
        (state.afterAll events).link? key = state.link? key := by
  by_cases touched : ∃ event ∈ events, ∃ written, event.linkWrite? = some (key, written)
  · rcases touched with ⟨event, member, written, write⟩
    obtain rfl := eq_desiredLink_of_linkWrite? carriedOut reachable member write
    refine Or.inl (carriedOut.inTurn.link?_afterAll ?_ (Or.inr ⟨event, member, write⟩))
    exact fun other otherMember written =>
      eq_desiredLink_of_linkWrite? carriedOut reachable otherMember
  · have untouched : ∀ event ∈ events, ∀ written, event.linkWrite? ≠ some (key, written) :=
      fun event member written write => touched ⟨event, member, written, write⟩
    refine Or.inr ⟨untouched, carriedOut.inTurn.link?_afterAll ?_ (Or.inl rfl)⟩
    exact fun event member written write => absurd write (untouched event member written)

theorem linkActions_afterAll (reachable : state.Reachable) :
    manifest.linkActions (state.afterAll events) = [] := by
  refine List.append_eq_nil_iff.mpr ⟨List.map_eq_nil_iff.mpr ?_, List.map_eq_nil_iff.mpr ?_⟩
  · refine List.filter_eq_nil_iff.mpr fun link member => ?_
    have desired := mem_desiredLinks_values_iff.mp member
    rcases link?_afterAll_cases carriedOut reachable link.key with asked | ⟨untouched, unchanged⟩
    · rw [asked, desired]
      simp [ActiveLink.sameWiring]
    · have notMissing : .addLink link ∉ evaluate manifest state := by
        intro missing
        rcases carriedOut.exists_linkWrite?_of_addLink missing with ⟨event, eventMember, write⟩
        exact untouched event eventMember _ write
      rw [addLink_mem_evaluate_iff, and_iff_right desired] at notMissing
      rw [unchanged]
      cases found : state.link? link.key with
      | none => simp [found] at notMissing
      | some current => simpa [found] using notMissing
  · refine List.filter_eq_nil_iff.mpr fun link member => ?_
    rcases (reachable.afterAll events).mem_linksOwnedBy_iff.mp member with ⟨found, owned⟩
    rw [Bool.not_eq_true', Bool.not_eq_false]
    by_contra undeclared
    rw [Bool.not_eq_true] at undeclared
    rcases link?_afterAll_cases carriedOut reachable link.key with asked | ⟨untouched, unchanged⟩
    · rw [SortedMap.contains_eq_isSome, ← asked, found] at undeclared
      cases undeclared
    · have removed : .removeLink link.key ∈ evaluate manifest state :=
        (removeLink_mem_evaluate_iff reachable).mpr
          ⟨⟨link, unchanged ▸ found, owned⟩, undeclared⟩
      rcases carriedOut.exists_linkWrite?_of_removeLink removed with ⟨event, eventMember, write⟩
      exact untouched event eventMember _ write

end CarriedOut

/--
When everything that evaluation asks for a valid manifest has been carried out, evaluation asks for
nothing more, if the sites of each scaler have no host in common.
-/
theorem evaluate_afterAll_eq_nil (valid : manifest.isValid = true) (reachable : state.Reachable)
    (apart : ∀ component ∈ manifest.components, ∀ scaler ∈ component.scalers,
      Spread.SitesApart scaler state)
    (carriedOut : CarriedOut manifest.name (evaluate manifest state) state events) :
    evaluate manifest (state.afterAll events) = [] := by
  have scaled : manifest.scalerActions (state.afterAll events) = [] := by
    refine List.flatMap_eq_nil_iff.mpr fun component member => ?_
    refine List.flatMap_eq_nil_iff.mpr fun scaler scalerMember => ?_
    rcases scalers_cases valid member with unscaled | ⟨only, scaled⟩
    · rw [unscaled] at scalerMember
      cases scalerMember
    · obtain rfl : scaler = only := List.mem_singleton.mp (scaled ▸ scalerMember)
      exact spread_evaluate_afterAll carriedOut valid member scaled
        (apart component member scaler scalerMember)
  have orphaned : manifest.orphanActions (state.afterAll events) = [] := by
    rw [orphanActions, orphans_afterAll carriedOut]
    rfl
  rw [evaluate, scaled, orphaned, linkActions_afterAll carriedOut reachable]
  rfl

/-- A round that replaces an old instance and an old link, its events not in the order asked for. -/
theorem evaluate_afterAll_eq_nil_of_update :
    let zone (name : String) : WeightedTarget := (WeightedTarget.new name 1).require "zone" name
    let scaler := ((SpreadScaler.new 2).withTarget (zone "a")).withTarget (zone "b")
    let component : Component := ((Component.new "api" .component "registry/api:2").withTrait
      (.spreadScaler scaler)).withTrait (.link (.new "wasi" "keyvalue" (.external "store")))
    let manifest : Manifest := (Manifest.new ⟨"shop"⟩ "v2").withComponent component
    let event (host : String) (sequence : UInt64) (kind : LatticeEventKind) : LatticeEvent :=
      ⟨⟨"prod"⟩, ⟨host⟩, sequence, ⟨0, 0⟩, kind⟩
    let started (host : String) (sequence : UInt64) (image id : String) : LatticeEvent :=
      event host sequence
        (.instanceStarted ⟨"shop-api"⟩ .component image ⟨id⟩ (.forApp ⟨"shop"⟩))
    let start (host zoneName : String) : RequiredAction :=
      .startInstances ⟨"shop-api"⟩ .component "registry/api:2" ⟨host⟩ (zone zoneName).requirements 1
    let old : LinkKey := ⟨⟨"shop-api"⟩, "default", "wasi", "http"⟩
    let new : ActiveLink :=
      ⟨⟨⟨"shop-api"⟩, "default", "wasi", "keyvalue"⟩, "store", [], ∅, some ⟨"shop"⟩⟩
    let observed : ObservedState := .replay ⟨"prod"⟩
      [event "host-a" 1 (.hostStarted (.ofList [("zone", "a")]) none),
        event "host-b" 1 (.hostStarted (.ofList [("zone", "b")]) none),
        started "host-a" 2 "registry/api:1" "i-1",
        event "host-b" 2 (.linkSet ⟨old, "edge", [], ∅, some ⟨"shop"⟩⟩)]
    let deleted := event "host-b" 3 (.linkDeleted old)
    let startedA := started "host-a" 3 "registry/api:2" "i-2"
    let startedB := started "host-b" 4 "registry/api:2" "i-2"
    let put := event "host-a" 5 (.linkSet new)
    let stopped := event "host-a" 7 (.instanceStopped ⟨"shop-api"⟩ ⟨"i-1"⟩)
    let events : List LatticeEvent := [deleted, startedA, startedB, put, stopped]
    let reports : List (RequiredAction × List LatticeEvent) :=
      [(start "host-a" "a", [startedA]), (start "host-b" "b", [startedB]),
        (.stopInstances ⟨"shop-api"⟩ ⟨"host-a"⟩ [⟨"i-1"⟩], [stopped]),
        (.addLink new, [put]), (.removeLink old, [deleted])]
    (manifest.isValid = true ∧ observed.Reachable ∧
        (∀ component ∈ manifest.components, ∀ scaler ∈ component.scalers,
          Spread.SitesApart scaler observed) ∧
        CarriedOut manifest.name (evaluate manifest observed) observed events) ∧
      evaluate manifest observed = reports.map Prod.fst ∧
      evaluate manifest (observed.afterAll events) = [] := by
  intro zone scaler component manifest event started start old new observed deleted startedA
    startedB put stopped events reports
  have valid : manifest.isValid = true := by decide +kernel
  have reachable : observed.Reachable := (ObservedState.Reachable.empty ⟨"prod"⟩).afterAll _
  have asked : evaluate manifest observed = reports.map Prod.fst := by decide +kernel
  have sites : ∀ scaler ∈ component.scalers, Spread.sitesOf scaler observed =
      [⟨zone "a", [⟨"host-a"⟩]⟩, ⟨zone "b", [⟨"host-b"⟩]⟩] := by
    decide +kernel
  have apart : ∀ component ∈ manifest.components, ∀ scaler ∈ component.scalers,
      Spread.SitesApart scaler observed := by
    rintro _ (_ | ⟨_, ⟨⟩⟩) scaler member
    rw [Spread.SitesApart, sites scaler member]
    simp
  have carriedOut : CarriedOut manifest.name (evaluate manifest observed) observed events := by
    refine ⟨⟨reports, asked.symm, ?_, by decide +kernel⟩, by decide +kernel, by decide +kernel,
      by decide +kernel⟩
    have isStart : ∀ host sequence, ∀ told ∈ [started host sequence "registry/api:2" "i-2"],
        told.host = ⟨host⟩ ∧ ∃ kind id annotations,
          told.kind = .instanceStarted ⟨"shop-api"⟩ kind "registry/api:2" id annotations ∧
            annotations.find? Labels.managedBy = some "shop" := by
      rintro host sequence _ (_ | ⟨_, ⟨⟩⟩)
      exact ⟨rfl, _, _, _, rfl, by decide⟩
    simp only [reports, List.forall_mem_cons]
    exact ⟨⟨rfl, isStart _ _⟩, ⟨rfl, isStart _ _⟩, .cons ⟨rfl, _, rfl⟩ .nil, ⟨_, rfl, rfl⟩,
      ⟨_, rfl, rfl⟩, List.forall_mem_nil _⟩
  exact ⟨⟨valid, reachable, apart, carriedOut⟩, asked,
    evaluate_afterAll_eq_nil valid reachable apart carriedOut⟩

end Manifest

end Reconciler
