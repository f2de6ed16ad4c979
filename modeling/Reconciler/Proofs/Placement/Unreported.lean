import Reconciler.Proofs.Observed.Delivery
import Reconciler.Proofs.Observed.Redelivery
import Reconciler.Proofs.Placement.Balance
import Reconciler.Proofs.Placement.Outline

/-!
# Events that are not reported as changes

An event that is skipped or only recorded leaves the outline of a state as it is, and with it every
evaluation, unless it is the first sign of life of a host. The health of a provider, a link that
stands already and the end of a link that is gone are only recorded even then, although from then on
the host is one to start instances on.
-/

namespace Reconciler

namespace LatticeEvent

variable {event : LatticeEvent}

/-- An event that is only recorded leaves the outline of a live host as it is. -/
theorem outline_liveAfter {host : HostState} {named : Option ActiveLink}
    (recorded : event.outcome (some host) named = .recorded) :
    (event.liveAfter (some host)).map HostState.outline = some host.outline := by
  cases kind : event.kind with
  | hostStarted labels epoch =>
      simp only [outcome, kind] at recorded
      split at recorded
      · cases recorded
      · rename_i unchanged
        rw [Bool.or_eq_true, not_or, Bool.not_eq_true, Bool.not_eq_true, bne_eq_false_iff_eq]
          at unchanged
        simp only [liveAfter, kind, boot, unchanged.1, ← unchanged.2, Option.map_some]
        rfl
  | hostHeartbeat labels =>
      simp only [outcome, kind] at recorded
      split at recorded
      · cases recorded
      · rename_i unchanged
        rw [Bool.not_eq_true, bne_eq_false_iff_eq] at unchanged
        simp only [liveAfter, kind, ← unchanged, Option.map_some]
        rfl
  | hostStopped => simp [outcome, kind] at recorded
  | instanceStarted component componentKind imageRef id annotations =>
      simp only [outcome, kind] at recorded
      split at recorded
      · rename_i running
        simp only [liveAfter, kind, running, if_true, Option.map_some]
        rfl
      · cases recorded
  | instanceStopped component id =>
      simp only [outcome, kind, Option.bind_some] at recorded
      split at recorded
      · cases recorded
      · rename_i absent
        have sameInstances : (host.advance event).instances.erase id = host.instances :=
          SortedMap.erase_eq_self absent
        simp only [liveAfter, kind, Option.map_some, sameInstances]
        rfl
  | providerHealth component healthy =>
      let status : InstanceStatus := if healthy then .running else .failed
      have sameInstances : (host.instances.mapValues fun _ record =>
            if record.component == component && record.componentKind == .provider then
              { record with status := status }
            else record).mapValues (fun _ record => record.outline) =
          host.instances.mapValues fun _ record => record.outline := by
        apply SortedMap.ext_find?
        intro name
        rw [SortedMap.find?_mapValues, SortedMap.find?_mapValues, SortedMap.find?_mapValues,
          Option.map_map]
        apply congrArg (Option.map · _)
        funext record
        rw [Function.comp_apply]
        split <;> rfl
      simp only [liveAfter, kind, Option.map_some, HostState.outline, touch, HostState.advance]
      rw [sameInstances]
  | linkSet link =>
      simp only [liveAfter, kind, Option.map_some]
      rfl
  | linkDeleted key =>
      simp only [liveAfter, kind, Option.map_some]
      rfl

/-- An event that is only recorded writes a link as it stands. -/
theorem eq_of_linkWrite? {live : Option HostState} {standing : LinkKey → Option ActiveLink}
    (recorded : event.outcome live (event.linkWrite?.bind fun write => standing write.1) =
      .recorded) {key : LinkKey} {written : Option ActiveLink}
    (write : event.linkWrite? = some (key, written)) : written = standing key := by
  cases kind : event.kind with
  | linkSet link =>
      simp only [linkWrite?, kind, Option.some.injEq, Prod.mk.injEq] at write
      rcases write with ⟨rfl, rfl⟩
      simp only [outcome, linkWrite?, kind, Option.bind_some] at recorded
      split at recorded
      · rename_i stands
        exact stands.symm
      · cases recorded
  | linkDeleted deleted =>
      simp only [linkWrite?, kind, Option.some.injEq, Prod.mk.injEq] at write
      rcases write with ⟨rfl, rfl⟩
      simp only [outcome, linkWrite?, kind, Option.bind_some] at recorded
      split at recorded
      · cases recorded
      · rename_i gone
        exact gone.symm
  | _ => simp [linkWrite?, kind] at write

end LatticeEvent

namespace ObservedState

variable {state : ObservedState} {event : LatticeEvent}

/-- Whether an event is the first sign of life of a host. -/
def revealsHost (state : ObservedState) (event : LatticeEvent) : Prop :=
  state.takes event ∧ state.host? event.host = none ∧ event.isStop = false

instance (state : ObservedState) (event : LatticeEvent) : Decidable (state.revealsHost event) :=
  inferInstanceAs (Decidable (_ ∧ _ ∧ _))

theorem outcome_of_recorded (recorded : (state.apply event).2 = .recorded) :
    state.takes event ∧ event.outcome (state.host? event.host)
      (event.linkWrite?.bind fun write => state.link? write.1) = .recorded := by
  rw [apply_snd] at recorded
  split at recorded
  · rename_i taken
    exact ⟨taken, recorded⟩
  · cases recorded

theorem after_of_skipped (skipped : (state.apply event).2 = .skipped) :
    state.after event = state := by
  rw [after, apply_of_not_takes (apply_snd_eq_skipped_iff.mp skipped)]

theorem link?_after_of_recorded (recorded : (state.apply event).2 = .recorded) (key : LinkKey) :
    (state.after event).link? key = state.link? key := by
  rcases outcome_of_recorded recorded with ⟨taken, outcome⟩
  rw [link?_after]
  cases write : event.linkWrite? with
  | none => rfl
  | some keyed =>
      rcases keyed with ⟨named, written⟩
      simp only [taken, true_and]
      split
      · rename_i same
        rw [same]
        exact LatticeEvent.eq_of_linkWrite? outcome write
      · rfl

theorem host?_after_of_recorded (recorded : (state.apply event).2 = .recorded)
    (known : ¬state.revealsHost event) (id : HostId) :
    ((state.after event).host? id).map HostState.outline =
      (state.host? id).map HostState.outline := by
  rcases outcome_of_recorded recorded with ⟨taken, outcome⟩
  rw [host?_after taken]
  split
  · rename_i same
    rw [same]
    cases live : state.host? event.host with
    | some host =>
        rw [live] at outcome
        exact LatticeEvent.outline_liveAfter outcome
    | none =>
        have isStop : event.isStop = true := by
          by_contra notStop
          exact known ⟨taken, live, by simpa using notStop⟩
        cases kind : event.kind with
        | hostStopped => rw [LatticeEvent.liveAfter, kind]
        | instanceStopped component name =>
            simp only [LatticeEvent.liveAfter, kind]
            rfl
        | _ => simp [LatticeEvent.isStop, kind] at isStop
  · rfl

theorem outline_after
    (unreported : (state.apply event).2 = .skipped ∨ (state.apply event).2 = .recorded)
    (known : ¬state.revealsHost event) : (state.after event).outline = state.outline := by
  rcases unreported with skipped | recorded
  · rw [after_of_skipped skipped]
  · have hosts : ((state.after event).hosts.mapValues fun _ host => host.outline) =
        state.hosts.mapValues fun _ host => host.outline := by
      apply SortedMap.ext_find?
      intro id
      rw [SortedMap.find?_mapValues, SortedMap.find?_mapValues]
      exact host?_after_of_recorded recorded known id
    have links : (state.after event).links = state.links :=
      SortedMap.ext_find? (link?_after_of_recorded recorded)
    rw [outline, hosts, links, lattice_after]
    rfl

theorem exists_host_of_revealsHost (reveals : state.revealsHost event) :
    ∃ host, (state.after event).host? event.host = some host := by
  rcases reveals with ⟨taken, unknown, notStop⟩
  rw [host?_after taken, if_pos rfl, unknown]
  cases kind : event.kind with
  | hostStopped => simp [LatticeEvent.isStop, kind] at notStop
  | instanceStopped component name => simp [LatticeEvent.isStop, kind] at notStop
  | _ => simp only [LatticeEvent.liveAfter, kind, Option.some.injEq, exists_eq']

/-- There is always an application for which nothing runs yet. -/
theorem exists_unmanaged_app (state : ObservedState) :
    ∃ app : AppName, Text.isBlank app.text = false ∧ state.managedInstances app = [] := by
  let names := state.placedInstances.filterMap fun placed => placed.record.managedBy
  -- A name longer than all names in use together is not in use.
  let length := (names.map String.length).sum + 1
  refine ⟨⟨String.ofList (List.replicate length 'x')⟩, ?_, ?_⟩
  · rw [Text.isBlank, String.toList_ofList, List.replicate_succ, List.all_cons]
    rfl
  · apply List.filter_eq_nil_iff.mpr
    intro placed member managed
    rw [InstanceRecord.isManagedBy, beq_iff_eq] at managed
    have inUse : String.ofList (List.replicate length 'x') ∈ names :=
      List.mem_filterMap.mpr ⟨placed, member, managed⟩
    have bound := List.le_sum_of_mem (List.mem_map_of_mem (f := String.length) inUse)
    rw [String.length_ofList, List.length_replicate] at bound
    omega

end ObservedState

namespace Manifest

/-- An application whose only component may run on every host. -/
def everywhere (app : AppName) (instances : UInt32) : Manifest :=
  (Manifest.new app "v1").withComponent
    ((Component.new "web" .component "image").withTrait (.spreadScaler (.new instances)))

variable {app : AppName} {instances : UInt32} {observed : ObservedState}

theorem isValid_everywhere (named : Text.isBlank app.text = false) :
    (everywhere app instances).isValid = true := by
  have name : Text.isBlank "web" = false := by decide
  have image : Text.isBlank "image" = false := by decide
  simp [isValid, problem?, everywhere, withComponent, Manifest.new, named, name, image,
    Component.firstHeadProblem?, Component.headProblem?, Component.traitProblem?,
    Component.linkProblem?, Component.scalers, Component.links, Component.withTrait, Component.new]

theorem sitesOf_everywhere :
    Spread.sitesOf (.new instances) observed = [⟨.new "" 1, observed.hosts.keys⟩] := by
  have all : Spread.acceptedHosts (.new "" 1) observed = observed.hosts.keys := by
    apply congrArg (List.map Prod.fst)
    apply List.filter_eq_self.mpr
    intro _ _
    rfl
  rw [← all]
  rfl

/-- With as many instances as there are hosts, each host gets one. -/
theorem startsOn_everywhere_pos (unmanaged : observed.managedInstances app = [])
    (enough : observed.hosts.size ≤ instances.toNat) (id : ComponentId) (component : Component)
    {host : HostId} (live : host ∈ observed.hosts.keys) :
    0 < (Spread.plan app id component (.new instances) observed).startsOn host := by
  have noPool : Spread.pool app id observed = [] := by
    rw [Spread.pool, unmanaged, List.filter_nil, PlacedInstance.oldestFirst, List.mergeSort_nil]
  let site : Spread.Site := ⟨.new "" 1, observed.hosts.keys⟩
  have size : site.hosts.length = observed.hosts.size := List.length_map _
  have onlyStarts : Spread.plan app id component (.new instances) observed =
      Spread.Plan.startMany site instances.toNat (.initial []) := by
    rw [Spread.plan, noPool, sitesOf_everywhere, SpreadScaler.new,
      Spread.allocate_singleton instances rfl (List.ne_nil_of_mem live)]
    simp [Spread.Plan.serve_eq, Spread.Plan.claim, Spread.Site.newest, Spread.Plan.initial, site]
  rw [onlyStarts]
  exact Spread.Plan.startsOn_startMany_pos (size ▸ enough) live

end Manifest

namespace ObservedState

/-- An application with as many instances as there are hosts tells whether a host appears. -/
theorem exists_evaluate_ne {state : ObservedState} {event : LatticeEvent}
    (reveals : state.revealsHost event) (few : (state.after event).hosts.size < UInt32.size) :
    ∃ manifest : Manifest, manifest.isValid = true ∧
      evaluate manifest (state.after event) ≠ evaluate manifest state := by
  rcases exists_host_of_revealsHost reveals with ⟨host, live⟩
  rcases exists_unmanaged_app (state.after event) with ⟨app, named, unmanaged⟩
  let instances := (state.after event).hosts.size.toUInt32
  let manifest := Manifest.everywhere app instances
  have valid : manifest.isValid = true := Manifest.isValid_everywhere named
  let component := (Component.new "web" .component "image").withTrait
    (.spreadScaler (.new instances))
  let id := manifest.componentId component
  have member : component ∈ manifest.components := List.mem_singleton.mpr rfl
  have starts : ∀ observed,
      ((evaluate manifest observed).map (RequiredAction.startsOf id event.host)).sum =
        (Spread.plan app id component (.new instances) observed).startsOn event.host := by
    intro observed
    apply Manifest.sum_startsOf_evaluate valid member rfl
    rw [Spread.SitesApart, Manifest.sitesOf_everywhere]
    exact List.pairwise_singleton _ _
  have noneBefore :
      (Spread.plan app id component (.new instances) state).startsOn event.host = 0 := by
    apply Spread.startsOn_plan_eq_zero
    intro site siteMember onSite
    rw [Manifest.sitesOf_everywhere, List.mem_singleton] at siteMember
    rw [siteMember, SortedMap.mem_keys_iff] at onSite
    rcases onSite with ⟨_, found⟩
    cases reveals.2.1.symm.trans found
  have someAfter : 0 <
      (Spread.plan app id component (.new instances) (state.after event)).startsOn event.host := by
    apply Manifest.startsOn_everywhere_pos unmanaged
    · exact (Nat.mod_eq_of_lt few).ge
    · exact SortedMap.mem_keys_iff.mpr ⟨host, live⟩
  refine ⟨manifest, valid, fun same => ?_⟩
  rw [← starts, same, starts, noneBefore] at someAfter
  exact Nat.lt_irrefl 0 someAfter

/--
An event that is skipped or only recorded changes no evaluation, unless it is the first sign of life
of a host; if it is, it changes one of a valid manifest, as long as the hosts can be counted.
-/
theorem evaluate_after_of_unreported {state : ObservedState} {event : LatticeEvent}
    (unreported : (state.apply event).2 = .skipped ∨ (state.apply event).2 = .recorded) :
    (¬state.revealsHost event →
      ∀ manifest, evaluate manifest (state.after event) = evaluate manifest state) ∧
    (state.revealsHost event → (state.after event).hosts.size < UInt32.size →
      ∃ manifest : Manifest, manifest.isValid = true ∧
        evaluate manifest (state.after event) ≠ evaluate manifest state) := by
  constructor
  · intro known manifest
    rw [← manifest.evaluate_outline, outline_after unreported known, manifest.evaluate_outline]
  · exact exists_evaluate_ne

/-- A provider that is reported healthy on a live host changes no evaluation, on a new host one. -/
theorem evaluate_after_of_unreported_health :
    let event (host : String) (sequence : UInt64) (kind : LatticeEventKind) : LatticeEvent :=
      ⟨⟨"prod"⟩, ⟨host⟩, sequence, ⟨0, 0⟩, kind⟩
    let state : ObservedState := .replay ⟨"prod"⟩ [event "host-a" 1 (.hostStarted ∅ none)]
    let known := event "host-a" 2 (.providerHealth ⟨"shop-kv"⟩ true)
    let unknown := event "host-b" 1 (.providerHealth ⟨"shop-kv"⟩ true)
    ((state.apply known).2 = .recorded ∧ (state.apply unknown).2 = .recorded) ∧
      (∀ manifest, evaluate manifest (state.after known) = evaluate manifest state) ∧
      ∃ manifest : Manifest, manifest.isValid = true ∧
        evaluate manifest (state.after unknown) ≠ evaluate manifest state := by
  intro event state known unknown
  have knownRecorded : (state.apply known).2 = .recorded := by decide +kernel
  have unknownRecorded : (state.apply unknown).2 = .recorded := by decide +kernel
  refine ⟨⟨knownRecorded, unknownRecorded⟩, ?_, ?_⟩
  · exact (evaluate_after_of_unreported (Or.inr knownRecorded)).1 (by decide +kernel)
  · exact (evaluate_after_of_unreported (Or.inr unknownRecorded)).2 (by decide +kernel)
      (by decide +kernel)

/-- On the first event of a lattice, the health of a provider, a host appears to start things on. -/
theorem evaluate_after_health_ne_of_empty :
    let event : LatticeEvent :=
      ⟨⟨"prod"⟩, ⟨"host-a"⟩, 1, ⟨0, 0⟩, .providerHealth ⟨"shop-kv"⟩ true⟩
    let manifest : Manifest := (Manifest.new ⟨"shop"⟩ "v1").withComponent
      ((Component.new "api" .component "registry/api:1").withTrait (.spreadScaler (.new 1)))
    let state : ObservedState := .empty ⟨"prod"⟩
    state.Reachable ∧ (state.apply event).2 = .recorded ∧ evaluate manifest state = [] ∧
      evaluate manifest (state.after event) =
        [.startInstances ⟨"shop-api"⟩ .component "registry/api:1" ⟨"host-a"⟩ ∅ 1] := by
  intro event manifest state
  exact ⟨.empty _, by decide +kernel, by decide +kernel, by decide +kernel⟩

end ObservedState

end Reconciler
