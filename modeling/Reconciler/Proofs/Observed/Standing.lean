import Reconciler.Observed.Fold
import Reconciler.Proofs.SortedMap

/-!
# The standing of hosts

The fold of events told host by host and link by link. What a state knows of a host is the standing
of the host. An event reads and changes the standing of its own host only, and besides that at most
the link that it names. `ObservedState.standing_after` and `ObservedState.link?_after` say what it
makes of them, so that later arguments go over `Standing.after` and not over the fold.
-/

namespace Reconciler

/-- What is known of a host: how it lives, and what is remembered of it as a stopped host. -/
structure Standing where
  live : Option HostState
  tombstone : Option Tombstone

namespace LatticeEvent

/-- Whether an event is a start with a later boot epoch than the one known, if one is known. -/
def isLaterBoot (event : LatticeEvent) (known : Option UInt64) : Bool :=
  match event.bootEpoch, known with
  | some epoch, some known => known < epoch
  | some _, none => true
  | none, _ => false

/-- The host of an event, after an event that finds it in this way. -/
def touch (event : LatticeEvent) (live : Option HostState) : HostState :=
  match live with
  | some host => host.advance event
  | none => HostState.appearing event

/-- The host of a start, after the start; a later boot leaves nothing of the earlier one. -/
def boot (event : LatticeEvent) (live : Option HostState) : HostState :=
  match live with
  | some host =>
    if event.isLaterBoot host.bootEpoch then HostState.appearing event else host.advance event
  | none => HostState.appearing event

/-- What an event that is taken makes of its host. -/
def liveAfter (event : LatticeEvent) (live : Option HostState) : Option HostState :=
  match event.kind with
  | .hostStarted labels epoch =>
    let host := event.boot live
    some { host with labels := labels, bootEpoch := epoch.or host.bootEpoch }
  | .hostHeartbeat labels => some { event.touch live with labels := labels }
  | .hostStopped => none
  | .instanceStarted component componentKind imageRef id annotations =>
    let host := event.touch live
    let record := InstanceRecord.started event component componentKind imageRef annotations
    some (if host.instances.contains id then host
      else { host with instances := host.instances.insert id record })
  | .instanceStopped _ id =>
    live.map fun host =>
      { host.advance event with instances := (host.advance event).instances.erase id }
  | .providerHealth component healthy =>
    let host := event.touch live
    let status : InstanceStatus := if healthy then .running else .failed
    some { host with
      instances := host.instances.mapValues fun _ record =>
        if record.component == component && record.componentKind == .provider then
          { record with status := status }
        else record }
  | .linkSet _ => some (event.touch live)
  | .linkDeleted _ => some (event.touch live)

/-- What an event that is taken leaves of the memory of its host as a stopped host. -/
def tombstoneAfter (event : LatticeEvent) (standing : Standing) : Option Tombstone :=
  match event.kind with
  | .hostStopped =>
    match standing.live with
    | some host =>
      some ⟨max host.highWater event.sequence, host.bootEpoch, event.occurredAt⟩
    | none => standing.tombstone
  | .instanceStopped .. => standing.tombstone
  | _ => none

/-- The key of the link that an event puts or deletes, and what stands under it afterwards. -/
def linkWrite? (event : LatticeEvent) : Option (LinkKey × Option ActiveLink) :=
  match event.kind with
  | .linkSet link => some (link.key, some link)
  | .linkDeleted key => some (key, none)
  | _ => none

/-- What an event that is taken does, given its host and the link that it names as it finds them. -/
def outcome (event : LatticeEvent) (live : Option HostState) (named : Option ActiveLink) :
    Applied :=
  match event.kind with
  | .hostStarted labels _ =>
    match live with
    | some host =>
      if event.isLaterBoot host.bootEpoch || host.labels != labels then .changed .lattice
      else .recorded
    | none => .changed .lattice
  | .hostHeartbeat labels =>
    match live with
    | some host => if host.labels != labels then .changed .lattice else .recorded
    | none => .changed .lattice
  | .hostStopped => if live.isSome then .changed .lattice else .recorded
  | .instanceStarted _ _ _ id annotations =>
    if (event.touch live).instances.contains id then .recorded
    else .changed (.ofAnnotations annotations)
  | .instanceStopped _ id =>
    match live.bind fun host => host.instances.find? id with
    | some record => .changed (.ofAnnotations record.annotations)
    | none => .recorded
  | .providerHealth .. => .recorded
  | .linkSet link => if named = some link then .recorded else .changed (.ofLink link)
  | .linkDeleted _ =>
    match named with
    | some link => .changed (.ofLink link)
    | none => .recorded

theorem outcome_ne_skipped (event : LatticeEvent) (live : Option HostState)
    (named : Option ActiveLink) : event.outcome live named ≠ .skipped := by
  rw [outcome.eq_def]
  grind

end LatticeEvent

namespace Standing

/-- Whether an event is a start with a later boot epoch than the last one known of its host. -/
def isRestart (standing : Standing) (event : LatticeEvent) : Bool :=
  match standing.live, standing.tombstone with
  | some host, _ => event.isLaterBoot host.bootEpoch
  | none, some tombstone => event.isLaterBoot tombstone.bootEpoch
  | none, none => false

/-- Whether an event repeats or precedes what is known of its host. -/
def isStale (standing : Standing) (event : LatticeEvent) : Bool :=
  if standing.isRestart event then false
  else
    match standing.live, standing.tombstone with
    | some host, _ => event.sequence ≤ host.highWater
    | none, some tombstone =>
      tombstone.blocks event && (!event.isHostStarted || event.sequence ≤ tombstone.highWater)
    | none, none => false

/-- The standing after an event of the host. -/
def after (standing : Standing) (event : LatticeEvent) : Standing :=
  if standing.isStale event then standing
  else ⟨event.liveAfter standing.live, event.tombstoneAfter standing⟩

end Standing

namespace ObservedState

/-- What a state knows of a host. -/
def standing (state : ObservedState) (id : HostId) : Standing :=
  ⟨state.host? id, state.retired.find? id⟩

/-- Whether a state takes an event, so that it is not skipped. -/
def takes (state : ObservedState) (event : LatticeEvent) : Prop :=
  event.lattice = state.lattice ∧ (state.standing event.host).isStale event = false

theorem afterAll_append (state : ObservedState) (first second : List LatticeEvent) :
    state.afterAll (first ++ second) = (state.afterAll first).afterAll second :=
  List.foldl_append

theorem afterAll_cons (state : ObservedState) (event : LatticeEvent) (rest : List LatticeEvent) :
    state.afterAll (event :: rest) = (state.after event).afterAll rest :=
  rfl

theorem isRestart_eq (state : ObservedState) (event : LatticeEvent) :
    state.isRestart event = (state.standing event.host).isRestart event := by
  simp only [isRestart, knownEpoch?, Standing.isRestart, standing, LatticeEvent.isLaterBoot]
  generalize state.host? event.host = live
  generalize state.retired.find? event.host = tombstone
  rcases event.bootEpoch with _ | epoch
  · rcases live with _ | host <;> rcases tombstone with _ | tombstone <;> rfl
  · rcases live with _ | ⟨_, _ | _, _, _, _⟩ <;> rcases tombstone with _ | ⟨_, _ | _, _⟩ <;> rfl

theorem isStale_eq (state : ObservedState) (event : LatticeEvent) :
    state.isStale event = (state.standing event.host).isStale event := by
  rw [isStale, Standing.isStale, isRestart_eq]
  split
  · rfl
  · simp only [standing]
    cases state.host? event.host <;> cases state.retired.find? event.host <;> rfl

theorem apply_of_takes {state : ObservedState} {event : LatticeEvent} (taken : state.takes event) :
    state.apply event = state.accept event := by
  have notSkipped : ¬(event.lattice ≠ state.lattice ∨ state.isStale event = true) := by
    simp [taken.1, isStale_eq, taken.2]
  rw [apply, if_neg notSkipped]

theorem apply_of_not_takes {state : ObservedState} {event : LatticeEvent}
    (notTaken : ¬state.takes event) : state.apply event = (state, .skipped) := by
  have skipped : event.lattice ≠ state.lattice ∨ state.isStale event = true := by
    by_contra neither
    rw [not_or, not_not, isStale_eq, Bool.not_eq_true] at neither
    exact notTaken neither
  rw [apply, if_pos skipped]

theorem touched_eq (state : ObservedState) (event : LatticeEvent) :
    state.touched event = event.touch (state.host? event.host) := by
  cases found : state.host? event.host <;> simp only [touched, found, LatticeEvent.touch]

/-- The host that a start leaves, before its labels and its boot epoch are noted. -/
theorem touched_restart (state : ObservedState) (event : LatticeEvent) :
    (if state.isRestart event then { state with hosts := state.hosts.erase event.host }
      else state).touched event = event.boot (state.host? event.host) := by
  rw [isRestart_eq, Standing.isRestart, standing, LatticeEvent.boot.eq_def]
  cases found : state.host? event.host with
  | none =>
      simp only
      split
      · simp [touched, host?]
      · simp [touched, found]
  | some host =>
      simp only
      split
      · simp [touched, host?]
      · simp [touched, found]

/-- What an event that is taken makes of the live hosts. -/
theorem host?_accept (state : ObservedState) (event : LatticeEvent) (id : HostId) :
    (state.accept event).1.host? id =
      if id = event.host then event.liveAfter (state.host? event.host) else state.host? id := by
  cases kind : event.kind with
  | hostStarted labels epoch =>
      simp only [accept, kind, applyHostStarted, applyLabels, withHost, touched_restart,
        LatticeEvent.liveAfter, host?, SortedMap.find?_insert]
      split
      · rfl
      · rename_i otherHost
        split <;> simp [otherHost]
  | hostHeartbeat labels =>
      simp [accept, kind, applyLabels, withHost, touched_eq, LatticeEvent.liveAfter, host?]
  | hostStopped =>
      simp only [accept, kind, applyHostStopped, LatticeEvent.liveAfter]
      cases found : state.host? event.host with
      | none =>
          by_cases same : id = event.host
          · simp [same, found]
          · simp [same]
      | some host => simp [host?]
  | instanceStarted component componentKind imageRef instanceId annotations =>
      simp only [accept, kind, applyInstanceStarted, touched_eq, LatticeEvent.liveAfter]
      split <;> simp [withHost, host?]
  | instanceStopped component instanceId =>
      simp only [accept, kind, applyInstanceStopped, LatticeEvent.liveAfter]
      cases found : state.host? event.host with
      | none =>
          by_cases same : id = event.host
          · simp [same, found]
          · simp [same]
      | some host =>
          simp only [Option.map_some]
          cases running : (host.advance event).instances.find? instanceId with
          | some record => simp [host?]
          | none => simp [host?, SortedMap.erase_eq_self running]
  | providerHealth component healthy =>
      simp [accept, kind, applyProviderHealth, withHost, touched_eq, LatticeEvent.liveAfter, host?]
  | linkSet link =>
      simp only [accept, kind, applyLinkSet, touched_eq, LatticeEvent.liveAfter]
      split <;> simp [withHost, host?]
  | linkDeleted key =>
      simp only [accept, kind, applyLinkDeleted, touched_eq, LatticeEvent.liveAfter]
      split <;> simp [withHost, host?]

/-- What an event that is taken makes of the memory of stopped hosts. -/
theorem retired_accept (state : ObservedState) (event : LatticeEvent) (id : HostId) :
    (state.accept event).1.retired.find? id =
      if id = event.host then event.tombstoneAfter (state.standing event.host)
      else state.retired.find? id := by
  cases kind : event.kind with
  | hostStarted labels epoch =>
      simp only [accept, kind, applyHostStarted, applyLabels, withHost, LatticeEvent.tombstoneAfter]
      split <;> simp
  | hostHeartbeat labels =>
      simp [accept, kind, applyLabels, withHost, LatticeEvent.tombstoneAfter]
  | hostStopped =>
      simp only [accept, kind, applyHostStopped, LatticeEvent.tombstoneAfter, standing]
      cases found : state.host? event.host with
      | none =>
          by_cases same : id = event.host
          · simp [same]
          · simp [same]
      | some host => simp
  | instanceStarted component componentKind imageRef instanceId annotations =>
      simp only [accept, kind, applyInstanceStarted, LatticeEvent.tombstoneAfter]
      split <;> simp [withHost]
  | instanceStopped component instanceId =>
      have untouched : (state.accept event).1.retired = state.retired := by
        simp only [accept, kind, applyInstanceStopped]
        split
        · split <;> rfl
        · rfl
      by_cases same : id = event.host
      · simp [untouched, same, LatticeEvent.tombstoneAfter, kind, standing]
      · simp [untouched, same]
  | providerHealth component healthy =>
      simp [accept, kind, applyProviderHealth, withHost, LatticeEvent.tombstoneAfter]
  | linkSet link =>
      simp only [accept, kind, applyLinkSet, LatticeEvent.tombstoneAfter]
      split <;> simp [withHost]
  | linkDeleted key =>
      simp only [accept, kind, applyLinkDeleted, LatticeEvent.tombstoneAfter]
      split <;> simp [withHost]

/-- What an event that is taken makes of the links. -/
theorem link?_accept (state : ObservedState) (event : LatticeEvent) (key : LinkKey) :
    (state.accept event).1.link? key =
      match event.linkWrite? with
      | some (written, link) => if key = written then link else state.link? key
      | none => state.link? key := by
  cases kind : event.kind with
  | hostStarted labels epoch =>
      simp only [accept, kind, applyHostStarted, applyLabels, withHost, LatticeEvent.linkWrite?,
        link?]
      split <;> rfl
  | hostHeartbeat labels =>
      simp [accept, kind, applyLabels, withHost, LatticeEvent.linkWrite?, link?]
  | hostStopped =>
      simp only [accept, kind, applyHostStopped, LatticeEvent.linkWrite?, link?]
      split <;> rfl
  | instanceStarted component componentKind imageRef instanceId annotations =>
      simp only [accept, kind, applyInstanceStarted, LatticeEvent.linkWrite?, link?]
      split <;> rfl
  | instanceStopped component instanceId =>
      simp only [accept, kind, applyInstanceStopped, LatticeEvent.linkWrite?, link?]
      split
      · split <;> rfl
      · rfl
  | providerHealth component healthy =>
      simp [accept, kind, applyProviderHealth, withHost, LatticeEvent.linkWrite?, link?]
  | linkSet link =>
      simp only [accept, kind, applyLinkSet, LatticeEvent.linkWrite?, link?, withHost]
      by_cases present : state.links.find? link.key = some link
      · by_cases same : key = link.key
        · simp [same, present]
        · simp [same, present]
      · simp [present]
  | linkDeleted deleted =>
      simp only [accept, kind, applyLinkDeleted, LatticeEvent.linkWrite?, link?, withHost]
      split
      · simp
      · rename_i absent
        by_cases same : key = deleted
        · simp [same, absent]
        · simp [same]

theorem lattice_accept (state : ObservedState) (event : LatticeEvent) :
    (state.accept event).1.lattice = state.lattice := by
  cases kind : event.kind with
  | hostStarted labels epoch =>
      simp only [accept, kind, applyHostStarted, applyLabels, withHost]
      split <;> rfl
  | hostHeartbeat labels => simp [accept, kind, applyLabels, withHost]
  | hostStopped =>
      simp only [accept, kind, applyHostStopped]
      split <;> rfl
  | instanceStarted component componentKind imageRef instanceId annotations =>
      simp only [accept, kind, applyInstanceStarted]
      split <;> rfl
  | instanceStopped component instanceId =>
      simp only [accept, kind, applyInstanceStopped]
      split
      · split <;> rfl
      · rfl
  | providerHealth component healthy => simp [accept, kind, applyProviderHealth, withHost]
  | linkSet link =>
      simp only [accept, kind, applyLinkSet]
      split <;> rfl
  | linkDeleted key =>
      simp only [accept, kind, applyLinkDeleted]
      split <;> rfl

instance (state : ObservedState) (event : LatticeEvent) : Decidable (state.takes event) :=
  inferInstanceAs (Decidable (_ ∧ _))

@[simp]
theorem lattice_after (state : ObservedState) (event : LatticeEvent) :
    (state.after event).lattice = state.lattice := by
  by_cases taken : state.takes event
  · rw [after, apply_of_takes taken, lattice_accept]
  · rw [after, apply_of_not_takes taken]

/-- An event of the lattice changes the standing of its own host, and of no other. -/
theorem standing_after (state : ObservedState) (event : LatticeEvent) (id : HostId) :
    (state.after event).standing id =
      if event.lattice = state.lattice ∧ id = event.host then (state.standing id).after event
      else state.standing id := by
  by_cases taken : state.takes event
  · rw [after, apply_of_takes taken]
    by_cases same : id = event.host
    · subst same
      rw [if_pos ⟨taken.1, rfl⟩, Standing.after, taken.2]
      simp [standing, host?_accept, retired_accept]
    · simp [standing, host?_accept, retired_accept, same]
  · rw [after, apply_of_not_takes taken]
    split
    · rename_i addressed
      rcases addressed with ⟨lattice, rfl⟩
      have stale : (state.standing event.host).isStale event = true := by
        by_contra fresh
        exact taken ⟨lattice, Bool.not_eq_true _ ▸ fresh⟩
      rw [Standing.after, if_pos stale]
    · rfl

/-- An event that is taken writes the link that it names, and no other. -/
theorem link?_after (state : ObservedState) (event : LatticeEvent) (key : LinkKey) :
    (state.after event).link? key =
      match event.linkWrite? with
      | some (written, link) =>
        if state.takes event ∧ key = written then link else state.link? key
      | none => state.link? key := by
  by_cases taken : state.takes event
  · rw [after, apply_of_takes taken, link?_accept]
    simp [taken]
  · rw [after, apply_of_not_takes taken]
    split <;> simp [taken]

/-- What an event that is taken answers. -/
theorem accept_snd (state : ObservedState) (event : LatticeEvent) :
    (state.accept event).2 =
      event.outcome (state.host? event.host)
        (event.linkWrite?.bind fun write => state.link? write.1) := by
  cases kind : event.kind with
  | hostStarted labels epoch =>
      simp only [accept, kind, applyHostStarted, applyLabels, SortedMap.contains_eq_isSome,
        LatticeEvent.outcome]
      -- A restart drops the host, so that its labels count as changed.
      have restart := state.isRestart_eq event
      simp only [Standing.isRestart, standing] at restart
      cases found : state.host? event.host with
      | none =>
          have unknown : state.hosts.find? event.host = none := found
          by_cases laterBoot : state.isRestart event = true
          · simp [laterBoot]
          · simp [laterBoot, unknown]
      | some host =>
          have known : state.hosts.find? event.host = some host := found
          rw [found] at restart
          simp only at restart
          by_cases laterBoot : event.isLaterBoot host.bootEpoch = true
          · simp [restart, laterBoot]
          · simp [restart, laterBoot, known, touched, found, HostState.advance]
  | hostHeartbeat labels =>
      simp only [accept, kind, applyLabels, SortedMap.contains_eq_isSome, LatticeEvent.outcome]
      cases found : state.host? event.host with
      | none =>
          have unknown : state.hosts.find? event.host = none := found
          simp [unknown]
      | some host =>
          have known : state.hosts.find? event.host = some host := found
          simp [known, touched, found, HostState.advance]
  | hostStopped =>
      simp only [accept, kind, applyHostStopped, LatticeEvent.outcome]
      cases state.host? event.host <;> simp
  | instanceStarted component componentKind imageRef instanceId annotations =>
      simp only [accept, kind, applyInstanceStarted, touched_eq, LatticeEvent.outcome]
      split <;> rfl
  | instanceStopped component instanceId =>
      simp only [accept, kind, applyInstanceStopped, LatticeEvent.outcome]
      cases state.host? event.host with
      | none => rfl
      | some host =>
          simp only [Option.bind_some, HostState.advance]
          cases host.instances.find? instanceId <;> rfl
  | providerHealth component healthy =>
      simp [accept, kind, applyProviderHealth, LatticeEvent.outcome]
  | linkSet link =>
      simp only [accept, kind, applyLinkSet, LatticeEvent.outcome, LatticeEvent.linkWrite?,
        Option.bind_some, link?, withHost]
      by_cases present : state.links.find? link.key = some link
      · simp [present]
      · simp [present]
  | linkDeleted key =>
      simp only [accept, kind, applyLinkDeleted, LatticeEvent.outcome, LatticeEvent.linkWrite?,
        Option.bind_some, link?, withHost]
      cases state.links.find? key <;> rfl

/-- What an event answers. -/
theorem apply_snd (state : ObservedState) (event : LatticeEvent) :
    (state.apply event).2 =
      if state.takes event then
        event.outcome (state.host? event.host)
          (event.linkWrite?.bind fun write => state.link? write.1)
      else .skipped := by
  by_cases taken : state.takes event
  · rw [apply_of_takes taken, accept_snd, if_pos taken]
  · rw [apply_of_not_takes taken, if_neg taken]

theorem apply_snd_eq_skipped_iff {state : ObservedState} {event : LatticeEvent} :
    (state.apply event).2 = .skipped ↔ ¬state.takes event := by
  rw [apply_snd]
  split
  · rename_i taken
    exact iff_of_false (event.outcome_ne_skipped _ _) (not_not_intro taken)
  · rename_i notTaken
    exact iff_of_true rfl notTaken

/-- States of one lattice that agree on the standing of all hosts and on all links are equal. -/
theorem ext_standing {first second : ObservedState} (lattice : first.lattice = second.lattice)
    (standing : ∀ id, first.standing id = second.standing id)
    (links : ∀ key, first.link? key = second.link? key) : first = second := by
  rcases first with ⟨firstLattice, firstHosts, firstRetired, firstLinks⟩
  rcases second with ⟨secondLattice, secondHosts, secondRetired, secondLinks⟩
  have hosts : firstHosts = secondHosts :=
    SortedMap.ext_find? fun id => congrArg Standing.live (standing id)
  have retired : firstRetired = secondRetired :=
    SortedMap.ext_find? fun id => congrArg Standing.tombstone (standing id)
  have sameLinks : firstLinks = secondLinks := SortedMap.ext_find? links
  cases lattice
  rw [hosts, retired, sameLinks]

end ObservedState

end Reconciler
