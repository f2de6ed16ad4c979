import Reconciler.Proofs.Observed.Inventory
import Reconciler.Proofs.Observed.Redelivery

/-!
# Retirement

A host that has stopped stays out. For as long as its tombstone holds its events back, they are
skipped whatever they tell, and what is remembered of the host does not change. What it yields to is
a start with a number or a boot epoch beyond those that it remembers, at any time. The one gap is at
the end of the calendar, where a tombstone expires before the leap second of the stop.
-/

namespace Reconciler

theorem LatticeEvent.isHostStarted_of_isLaterBoot {event : LatticeEvent} {known : Option UInt64}
    (laterBoot : event.isLaterBoot known = true) : event.isHostStarted = true := by
  cases kind : event.kind <;>
    simp [isLaterBoot, bootEpoch, isHostStarted, kind] at laterBoot ⊢

/-- Whether an event is a start with a number or a boot epoch beyond those of a stopped host. -/
def Tombstone.yieldsTo (tombstone : Tombstone) (event : LatticeEvent) : Bool :=
  event.isHostStarted &&
    (tombstone.highWater < event.sequence || event.isLaterBoot tombstone.bootEpoch)

namespace Standing

/-- The standing of a stopped host that is remembered. -/
def retired (tombstone : Tombstone) : Standing :=
  ⟨none, some tombstone⟩

/-- A tombstone holds back what happens before it expires, but for the starts that it yields to. -/
theorem isStale_retired (tombstone : Tombstone) (event : LatticeEvent) :
    (retired tombstone).isStale event =
      (tombstone.blocks event && !tombstone.yieldsTo event) := by
  simp only [isStale, isRestart, retired, Tombstone.yieldsTo]
  by_cases laterBoot : event.isLaterBoot tombstone.bootEpoch = true
  · simp [laterBoot, LatticeEvent.isHostStarted_of_isLaterBoot laterBoot]
  · simp [laterBoot, ← UInt64.not_le, decide_not]

/-- A start that a tombstone yields to leaves a live host with its labels and nothing else. -/
theorem retired_after_start {tombstone : Tombstone} {start : LatticeEvent} {labels : Labels}
    {epoch : Option UInt64} (kind : start.kind = .hostStarted labels epoch)
    (yields : tombstone.yieldsTo start = true) :
    ∃ host, (retired tombstone).after start = ⟨some host, none⟩ ∧ host.labels = labels ∧
      host.instances = ∅ := by
  rw [after, isStale_retired, yields, Bool.not_true, Bool.and_false, if_neg Bool.false_ne_true]
  simp only [LatticeEvent.liveAfter, LatticeEvent.tombstoneAfter, LatticeEvent.boot, kind, retired]
  exact ⟨_, rfl, rfl, rfl⟩

/-- A host that does not live while it is remembered as stopped does not come to do so. -/
theorem live_after_eq_none {standing : Standing} {event : LatticeEvent}
    (apart : standing.tombstone.isSome → standing.live = none)
    (remembered : (standing.after event).tombstone.isSome) :
    (standing.after event).live = none := by
  rw [after] at remembered ⊢
  split
  · rename_i stale
    rw [if_pos stale] at remembered
    exact apart remembered
  · rename_i fresh
    rw [if_neg fresh] at remembered
    cases kind : event.kind with
    | hostStopped => simp [LatticeEvent.liveAfter, kind]
    | instanceStopped component instanceId =>
        simp only [LatticeEvent.tombstoneAfter, kind] at remembered
        simp [LatticeEvent.liveAfter, kind, apart remembered]
    | _ => simp [LatticeEvent.tombstoneAfter, kind] at remembered

end Standing

namespace ObservedState

/-- No host is both live and remembered as stopped. -/
theorem Reachable.standing_eq_retired {state : ObservedState} (reachable : state.Reachable)
    {id : HostId} {tombstone : Tombstone} (remembered : state.retired.find? id = some tombstone) :
    state.standing id = .retired tombstone := by
  have apart : (state.standing id).tombstone.isSome → (state.standing id).live = none := by
    refine reachable.standing_induction
      (motive := fun standing => standing.tombstone.isSome → standing.live = none)
      (fun _ => rfl) (fun _ _ => Standing.live_after_eq_none) ?_ id
    intro standing time apart kept
    apply apart
    simp only [Standing.prune, Option.isSome_filter] at kept
    exact Option.isSome_of_any kept
  have known : (state.standing id).tombstone = some tombstone := remembered
  exact congrArg₂ Standing.mk (apart (by simp [known])) known

/--
A stopped host stays out of a run: its events are skipped, it does not live, and what is remembered
of it is unchanged. A start that this yields to then brings it back, with nothing on it.
-/
structure StaysOut (state : ObservedState) (id : HostId) (tombstone : Tombstone)
    (events : List LatticeEvent) : Prop where
  skipped : ∀ before event after, events = before ++ event :: after → event.host = id →
    ((state.afterAll before).apply event).2 = .skipped
  absent : (state.afterAll events).host? id = none
  remembered : (state.afterAll events).retired.find? id = some tombstone
  returns : ∀ start labels epoch, start.lattice = state.lattice → start.host = id →
    start.kind = .hostStarted labels epoch → tombstone.yieldsTo start = true →
      ((state.afterAll events).apply start).2 ≠ .skipped ∧
        ∃ host, ((state.afterAll events).after start).host? id = some host ∧
          host.labels = labels ∧ host.instances = ∅ ∧
          ((state.afterAll events).after start).retired.find? id = none

section

variable {state : ObservedState} {id : HostId} {tombstone : Tombstone} {events : List LatticeEvent}

@[simp]
theorem lattice_afterAll (state : ObservedState) (events : List LatticeEvent) :
    (state.afterAll events).lattice = state.lattice := by
  induction events generalizing state with
  | nil => rfl
  | cons event rest ih => exact (ih (state.after event)).trans (state.lattice_after event)

/-- A host keeps its standing through events of other hosts and events that it holds back. -/
theorem standing_afterAll_of_isStale
    (stale : ∀ event ∈ events, event.host = id → (state.standing id).isStale event = true) :
    (state.afterAll events).standing id = state.standing id := by
  induction events generalizing state with
  | nil => rfl
  | cons event rest ih =>
      rcases List.forall_mem_cons.mp stale with ⟨eventStale, restStale⟩
      have kept : (state.after event).standing id = state.standing id := by
        rw [standing_after]
        split
        · rename_i own
          rw [Standing.after, if_pos (eventStale own.2.symm)]
        · rfl
      rw [← kept] at restStale ⊢
      exact ih restStale

theorem apply_of_isStale {event : LatticeEvent}
    (stale : (state.standing event.host).isStale event = true) :
    state.apply event = (state, .skipped) :=
  apply_of_not_takes fun taken => Bool.false_ne_true (taken.2.symm.trans stale)

/-- A stopped host stays out of a run if its tombstone blocks its events and yields to none. -/
theorem staysOut_of_blocks (retired : state.standing id = .retired tombstone)
    (blocked : ∀ event ∈ events, event.host = id →
      tombstone.blocks event = true ∧ tombstone.yieldsTo event = false) :
    state.StaysOut id tombstone events := by
  have stale : ∀ event ∈ events, event.host = id → (state.standing id).isStale event = true := by
    intro event member own
    rcases blocked event member own with ⟨blocks, doesNotYield⟩
    rw [retired, Standing.isStale_retired, blocks, doesNotYield]
    rfl
  have atEnd : (state.afterAll events).standing id = .retired tombstone :=
    (standing_afterAll_of_isStale stale).trans retired
  refine ⟨?_, congrArg Standing.live atEnd, congrArg Standing.tombstone atEnd, ?_⟩
  · rintro before event after rfl rfl
    have sofar : (state.afterAll before).standing event.host = state.standing event.host :=
      standing_afterAll_of_isStale fun other member own =>
        stale other (List.mem_append_left _ member) own
    rw [apply_of_isStale]
    rw [sofar]
    exact stale event (by simp) rfl
  · intro start labels epoch lattice own kind yields
    subst own
    have taken : (state.afterAll events).takes start := by
      refine ⟨by rw [lattice, lattice_afterAll], ?_⟩
      rw [atEnd, Standing.isStale_retired, yields, Bool.not_true, Bool.and_false]
    rcases Standing.retired_after_start kind yields with ⟨host, comesBack, sameLabels, nothing⟩
    have standing : ((state.afterAll events).after start).standing start.host =
        ⟨some host, none⟩ := by
      rw [standing_after, if_pos ⟨taken.1, rfl⟩, atEnd, comesBack]
    refine ⟨?_, host, congrArg Standing.live standing, sameLabels, nothing,
      congrArg Standing.tombstone standing⟩
    rw [ne_eq, apply_snd_eq_skipped_iff, not_not]
    exact taken

end

/--
A host that is remembered as stopped stays out of every run in which its events come no more than
the retention after the stop, and none of them is a start beyond what is remembered, exactly if no
event of it comes past the last point in time that a tombstone can expire at.
-/
theorem staysOut_iff (allowed : Timestamp → Prop) :
    (∀ state : ObservedState, state.Reachable → ∀ id tombstone,
      state.retired.find? id = some tombstone → ∀ events : List LatticeEvent,
        (∀ event ∈ events, event.lattice = state.lattice ∧ (event.host = id →
          allowed event.occurredAt ∧
            event.occurredAt ≤ tombstone.retiredAt.secondsLater Tombstone.retentionSeconds ∧
            tombstone.yieldsTo event = false)) →
          state.StaysOut id tombstone events) ↔
      ∀ time, allowed time → time ≤ .latest := by
  constructor
  · intro staysOut time timeAllowed
    by_contra past
    have expired : ¬time ≤ time.addSeconds Tombstone.retentionSeconds :=
      mt (Timestamp.le_addSeconds_iff (by decide)).mp past
    let birth : LatticeEvent := .birth ⟨"lattice"⟩ ⟨"host-a"⟩ time
    let death : LatticeEvent := .death ⟨"lattice"⟩ ⟨"host-a"⟩ time
    have remembered : (replay ⟨"lattice"⟩ [birth, death]).retired.find? ⟨"host-a"⟩ =
        some ⟨2, none, time⟩ :=
      congrArg Standing.tombstone (standing_replay_death ⟨"lattice"⟩ ⟨"host-a"⟩ time time)
    have out := staysOut _ ((Reachable.empty _).afterAll [birth, death]) _ _ remembered [birth] (by
      rw [List.forall_mem_singleton]
      exact ⟨by simp [birth, empty], fun _ => ⟨timeAllowed, Timestamp.le_secondsLater _ (by decide),
        rfl⟩⟩)
    have answer := out.skipped [] birth [] rfl rfl
    have reborn := apply_reborn_snd expired ⟨"lattice"⟩ ⟨"host-a"⟩
    rw [show ∀ state : ObservedState, state.afterAll [] = state from fun _ => rfl] at answer
    exact Applied.noConfusion (answer.symm.trans reborn)
  · intro times state reachable id tombstone remembered events regular
    refine staysOut_of_blocks (reachable.standing_eq_retired remembered) fun event member own => ?_
    rcases (regular event member).2 own with ⟨time, inReach, doesNotYield⟩
    refine ⟨decide_eq_true ?_, doesNotYield⟩
    exact Timestamp.le_addSeconds_of_le_secondsLater (by decide) inReach (times _ time)

/-- In the last leap second a host starts and stops, and a heartbeat brings it back. -/
theorem not_staysOut_of_lastLeapSecond :
    let heartbeat : LatticeEvent :=
      ⟨⟨"prod"⟩, ⟨"host-a"⟩, 3, .lastLeapSecond, .hostHeartbeat ∅⟩
    let stopped := replay ⟨"prod"⟩
      [.birth ⟨"prod"⟩ ⟨"host-a"⟩ .lastLeapSecond, .death ⟨"prod"⟩ ⟨"host-a"⟩ .lastLeapSecond]
    stopped.retired.find? ⟨"host-a"⟩ = some ⟨2, none, .lastLeapSecond⟩ ∧
      heartbeat.occurredAt ≤
        Timestamp.lastLeapSecond.secondsLater Tombstone.retentionSeconds ∧
      (stopped.apply heartbeat).2 = .changed .lattice ∧
      ((stopped.after heartbeat).host? ⟨"host-a"⟩).isSome = true := by
  decide +kernel

end ObservedState

end Reconciler
