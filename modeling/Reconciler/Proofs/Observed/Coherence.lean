import Reconciler.Proofs.Observed.Retirement

/-!
# Coherence

What a state tells of its hosts, instances and links fits together. A host is live or remembered as
stopped, but not both. A link stands under its own key. An instance has started no later, by number
and by time, than the last that is known of its host, and it runs if it is a component, since only
the health of providers is ever reported. Placement goes by all of these.

An event changes its own host only, so that instances are followed through
`LatticeEvent.liveAfter`, with one case for each kind of events.
-/

namespace Reconciler

/--
An instance has started no later than the last that is known of a host, and runs if it is a
component.
-/
structure InstanceRecord.FitsIn (record : InstanceRecord) (host : HostState) : Prop where
  startedSequence : record.startedSequence ≤ host.highWater
  startedAt : record.startedAt ≤ host.lastSeen
  running : record.componentKind = .component → record.status = .running

/-- The instances on a host fit in. -/
def HostState.IsCoherent (host : HostState) : Prop :=
  ∀ id record, host.instances.find? id = some record → record.FitsIn host

/-- A host is known at least as far as another one, by number and by time. -/
structure HostState.IsAhead (next host : HostState) : Prop where
  highWater : host.highWater ≤ next.highWater
  lastSeen : host.lastSeen ≤ next.lastSeen

variable {host next : HostState} {event : LatticeEvent} {live : Option HostState}

theorem InstanceRecord.FitsIn.ahead {record : InstanceRecord} (fits : record.FitsIn host)
    (ahead : next.IsAhead host) : record.FitsIn next :=
  ⟨UInt64.le_trans fits.startedSequence ahead.highWater, le_trans fits.startedAt ahead.lastSeen,
    fits.running⟩

namespace HostState

theorem isAhead_advance (host : HostState) (event : LatticeEvent) :
    (host.advance event).IsAhead host :=
  ⟨LatticeEvent.le_max_iff.mpr (.inl (UInt64.le_refl _)), (Timestamp.le_later ..).1⟩

/-- An instance that an event says has started fits in with its host after the event. -/
theorem fitsIn_advance (host : HostState) (event : LatticeEvent) (component : ComponentId)
    (componentKind : ComponentKind) (imageRef : String) (annotations : Labels) :
    (InstanceRecord.started event component componentKind imageRef annotations).FitsIn
      (host.advance event) where
  startedSequence := LatticeEvent.le_max_iff.mpr (.inr (UInt64.le_refl _))
  startedAt := (Timestamp.le_later ..).2
  running := by
    rintro rfl
    rfl

namespace IsCoherent

/-- A host that is known further stays coherent if all that is new on it fits in. -/
theorem ahead (coherent : host.IsCoherent) (ahead : next.IsAhead host)
    (instances : ∀ id record, next.instances.find? id = some record →
      host.instances.find? id = some record ∨ record.FitsIn next) : next.IsCoherent := by
  intro id record found
  rcases instances id record found with old | fits
  · exact (coherent id record old).ahead ahead
  · exact fits

theorem advance (coherent : host.IsCoherent) (event : LatticeEvent) :
    (host.advance event).IsCoherent :=
  coherent.ahead (host.isAhead_advance event) fun _ _ found => .inl found

/-- Labels and boot epochs do not count. -/
theorem relabel (coherent : host.IsCoherent) (labels : Labels) (epoch : Option UInt64) :
    { host with labels := labels, bootEpoch := epoch }.IsCoherent :=
  coherent.ahead ⟨UInt64.le_refl _, le_refl _⟩ fun _ _ found => .inl found

/-- On the same host nothing but the instances counts, all of which were there or fit in. -/
theorem withInstances (coherent : host.IsCoherent)
    {instances : SortedMap InstanceId InstanceRecord}
    (known : ∀ id record, instances.find? id = some record →
      host.instances.find? id = some record ∨ record.FitsIn host) :
    { host with instances := instances }.IsCoherent := by
  refine coherent.ahead ⟨UInt64.le_refl _, le_refl _⟩ fun id record found => ?_
  exact (known id record found).imp_right fun fits => ⟨fits.1, fits.2, fits.3⟩

end IsCoherent

/-- On a host of which only one event is known nothing runs. -/
theorem isCoherent_appearing (event : LatticeEvent) : (appearing event).IsCoherent := by
  intro id record found
  cases found

end HostState

namespace LatticeEvent

theorem exists_touch_eq_advance (event : LatticeEvent) (live : Option HostState) :
    ∃ host : HostState, event.touch live = host.advance event := by
  cases live with
  | none => exact ⟨_, rfl⟩
  | some host => exact ⟨host, rfl⟩

theorem isCoherent_touch (coherent : ∀ host ∈ live, host.IsCoherent) :
    (event.touch live).IsCoherent := by
  cases live with
  | none => exact HostState.isCoherent_appearing event
  | some host => exact (coherent host rfl).advance event

theorem isCoherent_boot (coherent : ∀ host ∈ live, host.IsCoherent) :
    (event.boot live).IsCoherent := by
  cases live with
  | none => exact HostState.isCoherent_appearing event
  | some host =>
      rw [boot]
      split
      · exact HostState.isCoherent_appearing event
      · exact (coherent host rfl).advance event

/-- An event that is taken leaves its host coherent, if the host lives afterwards. -/
theorem isCoherent_liveAfter (coherent : ∀ host ∈ live, host.IsCoherent) :
    ∀ host ∈ event.liveAfter live, host.IsCoherent := by
  have touched : (event.touch live).IsCoherent := isCoherent_touch coherent
  intro next lives
  cases kind : event.kind with
  | hostStarted labels epoch =>
      simp only [liveAfter, kind, Option.mem_some_iff] at lives
      subst lives
      exact (isCoherent_boot coherent).relabel labels _
  | hostHeartbeat labels =>
      simp only [liveAfter, kind, Option.mem_some_iff] at lives
      subst lives
      exact touched.relabel labels _
  | hostStopped =>
      simp only [liveAfter, kind] at lives
      cases lives
  | instanceStarted component componentKind imageRef instanceId annotations =>
      simp only [liveAfter, kind, Option.mem_some_iff] at lives
      subst lives
      split
      · exact touched
      · refine touched.withInstances fun id record found => ?_
        rw [SortedMap.find?_insert] at found
        split at found
        · rcases event.exists_touch_eq_advance live with ⟨host, same⟩
          obtain rfl := Option.some.inj found
          exact .inr (same ▸ host.fitsIn_advance event ..)
        · exact .inl found
  | instanceStopped component instanceId =>
      simp only [liveAfter, kind, Option.mem_map] at lives
      rcases lives with ⟨host, lived, rfl⟩
      refine ((coherent host lived).advance event).withInstances fun id record found => ?_
      rw [SortedMap.find?_erase] at found
      split at found
      · cases found
      · exact .inl found
  | providerHealth component healthy =>
      simp only [liveAfter, kind, Option.mem_some_iff] at lives
      subst lives
      refine touched.withInstances fun id record found => ?_
      rw [SortedMap.find?_mapValues, Option.map_eq_some_iff] at found
      rcases found with ⟨former, found, rfl⟩
      have fits := touched id former found
      split
      · -- What the event reports on is a provider.
        rename_i reported
        rw [Bool.and_eq_true, beq_iff_eq, beq_iff_eq] at reported
        refine .inr ⟨fits.startedSequence, fits.startedAt, fun isComponent => ?_⟩
        cases reported.2.symm.trans isComponent
      · exact .inr fits
  | linkSet link =>
      simp only [liveAfter, kind, Option.mem_some_iff] at lives
      subst lives
      exact touched
  | linkDeleted key =>
      simp only [liveAfter, kind, Option.mem_some_iff] at lives
      subst lives
      exact touched

end LatticeEvent

theorem Standing.isCoherent_after {standing : Standing}
    (coherent : ∀ host ∈ standing.live, host.IsCoherent) :
    ∀ host ∈ (standing.after event).live, host.IsCoherent := by
  rw [after]
  split
  · exact coherent
  · exact LatticeEvent.isCoherent_liveAfter coherent

namespace ObservedState

variable {state : ObservedState}

/-- The live hosts of a state are coherent. -/
theorem Reachable.isCoherent (reachable : state.Reachable) {id : HostId} :
    ∀ host ∈ (state.standing id).live, host.IsCoherent := by
  refine reachable.standing_induction
    (motive := fun standing => ∀ host ∈ standing.live, host.IsCoherent) ?_
    (fun _ _ => Standing.isCoherent_after) (fun _ _ coherent => coherent) id
  intro host lives
  cases lives

/--
In every state that events and forgetting lead to, no host is both live and remembered as stopped,
every link stands under its own key, and every instance has started no later, by number and by time,
than the last that is known of its host, and runs if it is a component.
-/
theorem Reachable.holds_together (reachable : state.Reachable) :
    (∀ id host, state.host? id = some host → state.retired.find? id = none) ∧
    (∀ key link, state.link? key = some link → link.key = key) ∧
    ∀ id host, state.host? id = some host →
      ∀ name record, host.instances.find? name = some record →
        record.startedSequence ≤ host.highWater ∧ record.startedAt ≤ host.lastSeen ∧
          (record.componentKind = .component → record.status = .running) := by
  refine ⟨?_, fun key link => reachable.key_link, ?_⟩
  · intro id host lives
    cases remembered : state.retired.find? id with
    | none => rfl
    | some tombstone =>
        have stopped := congrArg Standing.live (reachable.standing_eq_retired remembered)
        cases lives.symm.trans stopped
  · intro id host lives name record found
    have fits := reachable.isCoherent host lives name record found
    exact ⟨fits.startedSequence, fits.startedAt, fits.running⟩

/-- A host stops while another one, on which a component runs, goes on; the stop is forgotten. -/
theorem Reachable.holds_together_of_two_hosts :
    let event (host : String) (sequence : UInt64) (seconds : Int) (kind : LatticeEventKind) :
        LatticeEvent := ⟨⟨"prod"⟩, ⟨host⟩, sequence, ⟨seconds, 0⟩, kind⟩
    let state := replay ⟨"prod"⟩
      [event "host-a" 1 10 (.hostStarted ∅ (some 1)), event "host-b" 1 12 (.hostStarted ∅ none),
        event "host-a" 4 11 (.instanceStarted ⟨"shop-api"⟩ .component "registry/api:1" ⟨"i-1"⟩ ∅),
        event "host-a" 6 9 (.providerHealth ⟨"shop-api"⟩ false),
        event "host-b" 2 30 .hostStopped]
    state.retired.find? ⟨"host-b"⟩ = some ⟨2, none, ⟨30, 0⟩⟩ ∧ state.host? ⟨"host-b"⟩ = none ∧
      (state.pruneRetired ⟨4000, 0⟩).retiredHosts = [] ∧
      ∃ host record, (state.pruneRetired ⟨4000, 0⟩).host? ⟨"host-a"⟩ = some host ∧
        host.highWater = 6 ∧ host.lastSeen = ⟨11, 0⟩ ∧
        host.instances.find? ⟨"i-1"⟩ = some record ∧ record.startedSequence ≤ 6 ∧
        record.startedAt ≤ ⟨11, 0⟩ ∧ record.status = .running := by
  intro event state
  have reachable : state.Reachable := (Reachable.empty _).afterAll _
  have remembered : state.retired.find? ⟨"host-b"⟩ = some ⟨2, none, ⟨30, 0⟩⟩ := by decide +kernel
  have known : ((state.pruneRetired ⟨4000, 0⟩).host? ⟨"host-a"⟩).any (fun host =>
      decide (host.highWater = 6) && decide (host.lastSeen = ⟨11, 0⟩) &&
        (host.instances.find? ⟨"i-1"⟩).any fun record =>
          decide (record.componentKind = .component)) = true := by decide +kernel
  rcases (Option.any_eq_true _ _).mp known with ⟨host, lives, facts⟩
  simp only [Bool.and_eq_true, decide_eq_true_eq, Option.any_eq_true] at facts
  rcases facts with ⟨⟨mark, seen⟩, record, runs, isComponent⟩
  have fits := (reachable.prune ⟨4000, 0⟩).holds_together.2.2 ⟨"host-a"⟩ host lives _ record runs
  rw [mark, seen] at fits
  refine ⟨remembered, ?_, by decide +kernel, host, record, lives, mark, seen, runs, fits.1,
    fits.2.1, fits.2.2 isComponent⟩
  cases alive : state.host? ⟨"host-b"⟩ with
  | none => rfl
  | some other => cases (reachable.holds_together.1 _ other alive).symm.trans remembered

end ObservedState

end Reconciler
