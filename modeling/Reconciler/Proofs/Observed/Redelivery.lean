import Reconciler.Proofs.Observed.Lifetime

/-!
# Redelivery

An event that has been taken is held back when it comes again. Its host is live with a high-water
mark that the event does not exceed, or it has stopped and left a tombstone with such a mark; only a
later start brings it back, and with a higher mark. This rests on tombstones that do not expire too
early, which all do if they remember a stop in the last leap second.
-/

namespace Reconciler

namespace LatticeEvent

/-- Whether an event says that its host or an instance on it has stopped. -/
def isStop (event : LatticeEvent) : Bool :=
  match event.kind with
  | .hostStopped => true
  | .instanceStopped .. => true
  | _ => false

theorem not_isStop_of_isHostStarted {event : LatticeEvent} (started : event.isHostStarted = true) :
    event.kind ≠ .hostStopped ∧ event.isStop = false := by
  cases kind : event.kind <;> simp [isHostStarted, isStop, kind] at started ⊢

/-- A mark is covered by the greater of two marks exactly if one of them covers it. -/
theorem le_max_iff {mark first second : UInt64} :
    mark ≤ max first second ↔ mark ≤ first ∨ mark ≤ second := by
  rw [show max first second = if first ≤ second then second else first from rfl]
  split
  · rename_i ordered
    exact ⟨Or.inr, fun either => either.elim (UInt64.le_trans · ordered) id⟩
  · rename_i notOrdered
    have ordered : second ≤ first := UInt64.le_of_lt (UInt64.not_le.mp notOrdered)
    exact ⟨Or.inl, fun either => either.elim id (UInt64.le_trans · ordered)⟩

theorem highWater_touch (event : LatticeEvent) (live : Option HostState) :
    (event.touch live).highWater =
      max ((live.map HostState.highWater).getD 0) event.sequence := by
  cases live <;> rfl

/-- A start without a boot epoch is no restart. -/
theorem boot_eq_touch {event : LatticeEvent} (noEpoch : event.bootEpoch = none)
    (live : Option HostState) : event.boot live = event.touch live := by
  cases live with
  | none => rfl
  | some host => simp [boot, touch, isLaterBoot, noEpoch]

/-- An event that does not stop its host leaves it live, with a mark raised to that of the event. -/
theorem highWater_liveAfter {event : LatticeEvent} (noEpoch : event.bootEpoch = none)
    (notStopped : event.kind ≠ .hostStopped) {live : Option HostState}
    (found : event.isStop → live.isSome) :
    (event.liveAfter live).map HostState.highWater =
      some (max ((live.map HostState.highWater).getD 0) event.sequence) := by
  rw [← highWater_touch]
  cases kind : event.kind with
  | hostStarted labels epoch => simp [liveAfter, kind, boot_eq_touch noEpoch]
  | hostHeartbeat labels => simp [liveAfter, kind]
  | hostStopped => exact absurd kind notStopped
  | instanceStarted component componentKind imageRef instanceId annotations =>
      simp only [liveAfter, kind, Option.map_some]
      split <;> rfl
  | instanceStopped component instanceId =>
      rcases Option.isSome_iff_exists.mp (found (by simp [isStop, kind])) with ⟨host, rfl⟩
      simp [liveAfter, kind, touch]
  | providerHealth component healthy => simp [liveAfter, kind]
  | linkSet link => simp [liveAfter, kind]
  | linkDeleted key => simp [liveAfter, kind]

end LatticeEvent

namespace Standing

/--
A standing of the host of an event that holds the event back, and that later events at allowed times
keep from letting it pass.
-/
inductive Covers (allowed : Timestamp → Prop) (event : LatticeEvent) : Standing → Prop
  | live {host : HostState} {tombstone : Option Tombstone}
      (mark : event.sequence ≤ host.highWater) : Covers allowed event ⟨some host, tombstone⟩
  | stopped {tombstone : Tombstone} (mark : event.sequence ≤ tombstone.highWater)
      (retired : allowed tombstone.retiredAt) : Covers allowed event ⟨none, some tombstone⟩

section

variable {allowed : Timestamp → Prop} {standing : Standing} {event other : LatticeEvent}

theorem isRestart_eq_false (noEpoch : event.bootEpoch = none) :
    standing.isRestart event = false := by
  rcases standing with ⟨_ | host, _ | tombstone⟩ <;>
    simp [isRestart, LatticeEvent.isLaterBoot, noEpoch]

/-- A live host covers an event if its mark does. -/
theorem Covers.of_mark {mark : UInt64}
    (marked : standing.live.map HostState.highWater = some mark) (covered : event.sequence ≤ mark) :
    Covers allowed event standing := by
  rcases standing with ⟨live, tombstone⟩
  rcases Option.map_eq_some_iff.mp marked with ⟨host, rfl, rfl⟩
  exact .live covered

/-- An event that is taken is covered afterwards, unless it stops what is not live. -/
theorem covers_after (fresh : standing.isStale event = false) (noEpoch : event.bootEpoch = none)
    (time : allowed event.occurredAt) (found : event.isStop → standing.live.isSome) :
    Covers allowed event (standing.after event) := by
  rw [after, fresh, if_neg Bool.false_ne_true]
  by_cases stopped : event.kind = .hostStopped
  · have isStop : event.isStop := by simp [LatticeEvent.isStop, stopped]
    rcases Option.isSome_iff_exists.mp (found isStop) with ⟨host, live⟩
    simp only [LatticeEvent.liveAfter, LatticeEvent.tombstoneAfter, stopped, live]
    exact .stopped (LatticeEvent.le_max_iff.mpr (Or.inr (UInt64.le_refl _))) time
  · exact .of_mark (LatticeEvent.highWater_liveAfter noEpoch stopped found)
      (LatticeEvent.le_max_iff.mpr (Or.inr (UInt64.le_refl _)))

namespace Covers

variable (window : ∀ first second, allowed first → allowed second →
  first ≤ second.addSeconds Tombstone.retentionSeconds)

include window

/-- A covered event is held back. -/
theorem isStale (covers : Covers allowed event standing) (noEpoch : event.bootEpoch = none)
    (time : allowed event.occurredAt) : standing.isStale event = true := by
  rw [Standing.isStale, isRestart_eq_false noEpoch, if_neg Bool.false_ne_true]
  cases covers with
  | live mark => exact decide_eq_true mark
  | stopped mark retired =>
      have blocked : Tombstone.blocks _ event = true := decide_eq_true (window _ _ time retired)
      simp only [blocked, Bool.true_and, Bool.or_eq_true]
      exact Or.inr (decide_eq_true mark)

/-- Whatever comes after a covered event, the event stays covered. -/
theorem after (covers : Covers allowed event standing) (noEpoch : other.bootEpoch = none)
    (time : allowed other.occurredAt) : Covers allowed event (standing.after other) := by
  rw [Standing.after]
  split
  · exact covers
  · rename_i fresh
    cases covers with
    | live mark =>
        rename_i host tombstone
        by_cases stopped : other.kind = .hostStopped
        · simp only [LatticeEvent.liveAfter, LatticeEvent.tombstoneAfter, stopped]
          exact .stopped (LatticeEvent.le_max_iff.mpr (Or.inl mark)) time
        · exact .of_mark (LatticeEvent.highWater_liveAfter noEpoch stopped fun _ => rfl)
            (LatticeEvent.le_max_iff.mpr (Or.inl mark))
    | stopped mark retired =>
        rename_i tombstone
        have blocked : tombstone.blocks other = true := decide_eq_true (window _ _ time retired)
        -- Only a start with a higher mark gets past the tombstone.
        obtain ⟨started, higher⟩ :
            other.isHostStarted = true ∧ tombstone.highWater < other.sequence := by
          simpa [Standing.isStale, isRestart_eq_false noEpoch, blocked] using fresh
        rcases LatticeEvent.not_isStop_of_isHostStarted started with ⟨notStopped, noStop⟩
        refine .of_mark (LatticeEvent.highWater_liveAfter noEpoch notStopped (by simp [noStop]))
          (LatticeEvent.le_max_iff.mpr (Or.inr ?_))
        exact UInt64.le_trans mark (UInt64.le_of_lt higher)

end Covers

end

end Standing

namespace ObservedState

section

variable {allowed : Timestamp → Prop} {state : ObservedState} {event : LatticeEvent}
  (window : ∀ first second, allowed first → allowed second →
    first ≤ second.addSeconds Tombstone.retentionSeconds)

include window

/-- An event stays covered through any events at times that no tombstone expires before. -/
theorem covers_afterAll {events : List LatticeEvent}
    (regular : ∀ other ∈ events, other.bootEpoch = none ∧ allowed other.occurredAt)
    (covers : Standing.Covers allowed event (state.standing event.host)) :
    Standing.Covers allowed event ((state.afterAll events).standing event.host) := by
  induction events generalizing state with
  | nil => exact covers
  | cons other rest ih =>
      rcases List.forall_mem_cons.mp regular with ⟨⟨noEpoch, time⟩, restRegular⟩
      apply ih restRegular
      rw [standing_after]
      split
      · exact covers.after window noEpoch time
      · exact covers

/-- A second delivery of an event that was taken does nothing, whatever came in between. -/
theorem apply_redelivered {between : List LatticeEvent}
    (regular : ∀ other ∈ event :: between, other.bootEpoch = none ∧ allowed other.occurredAt)
    (taken : state.takes event)
    (found : event.isStop → (state.host? event.host).isSome) :
    (state.afterAll (event :: between)).apply event =
      (state.afterAll (event :: between), .skipped) := by
  rcases List.forall_mem_cons.mp regular with ⟨⟨noEpoch, time⟩, betweenRegular⟩
  have covers : Standing.Covers allowed event ((state.after event).standing event.host) := by
    rw [standing_after, if_pos ⟨taken.1, rfl⟩]
    exact Standing.covers_after taken.2 noEpoch time found
  have stale : ((state.afterAll (event :: between)).standing event.host).isStale event = true :=
    (covers_afterAll window betweenRegular covers).isStale window noEpoch time
  apply apply_of_not_takes
  rintro ⟨_, fresh⟩
  exact Bool.false_ne_true (fresh.symm.trans stale)

end

/-- A birth is taken again after the death, if the tombstone has expired before it. -/
theorem apply_reborn_snd {first second : Timestamp}
    (expired : ¬first ≤ second.addSeconds Tombstone.retentionSeconds) (lattice : LatticeId)
    (host : HostId) :
    ((replay lattice [.birth lattice host first, .death lattice host second]).apply
      (.birth lattice host first)).2 = .changed .lattice := by
  have dead := standing_replay_death lattice host first second
  apply apply_birth_snd
  · refine ⟨by simp [replay, afterAll, empty], ?_⟩
    exact (congrArg (Standing.isStale · _) dead).trans (Standing.dead_after_birth _ _ expired)
  · exact congrArg Standing.live dead

/--
A second delivery of an event that was taken does nothing, for all runs without boot epochs at
allowed times, exactly if no allowed time comes after a tombstone from another has expired. The
event must not have stopped what was not live. Outside leap seconds, the condition on the times says
that they are no further apart than tombstones are kept.
-/
theorem redelivery_skipped_iff (allowed : Timestamp → Prop) :
    ((∀ lattice before event between,
      (∀ other ∈ before ++ event :: between, other.bootEpoch = none ∧ allowed other.occurredAt) →
      ((replay lattice before).apply event).2 ≠ .skipped →
      (event.isStop → ((replay lattice before).host? event.host).isSome) →
      (replay lattice (before ++ event :: between)).apply event =
        (replay lattice (before ++ event :: between), .skipped)) ↔
      ∀ first second, allowed first → allowed second →
        first ≤ second.addSeconds Tombstone.retentionSeconds) ∧
    ∀ first second : Timestamp, first.inLeapSecond = false → second.inLeapSecond = false →
      first ≤ .latest →
      (first ≤ second.addSeconds Tombstone.retentionSeconds ↔
        first.nanosSince second ≤
          (Tombstone.retentionSeconds : Int) * Timestamp.nanosPerSecond) := by
  refine ⟨⟨?_, ?_⟩, ?_⟩
  · intro harmless first second firstAllowed secondAllowed
    by_contra expired
    have skipped := harmless ⟨"lattice"⟩ [] (.birth ⟨"lattice"⟩ ⟨"host-a"⟩ first)
      [.death ⟨"lattice"⟩ ⟨"host-a"⟩ second]
      (by simpa using ⟨⟨rfl, firstAllowed⟩, rfl, secondAllowed⟩)
      (by simp [apply_first_birth_snd])
      (fun stop => absurd stop Bool.false_ne_true)
    have answer := congrArg Prod.snd skipped
    rw [List.nil_append, apply_reborn_snd expired] at answer
    exact Applied.noConfusion answer
  · intro window lattice before event between regular notSkipped found
    have taken : (replay lattice before).takes event := by
      by_contra notTaken
      exact notSkipped (congrArg Prod.snd (apply_of_not_takes notTaken))
    rw [replay, afterAll_append]
    exact apply_redelivered window (List.forall_mem_append.mp regular).2 taken found
  · intro first second firstOrdinary secondOrdinary reachable
    exact Timestamp.le_addSeconds_iff_nanosSince (by decide) firstOrdinary secondOrdinary reachable

/-- In the last leap second a host starts and stops, and its start is taken again. -/
theorem redelivered_start_taken_of_lastLeapSecond :
    let start : LatticeEvent := .birth ⟨"prod"⟩ ⟨"host-a"⟩ .lastLeapSecond
    let stop : LatticeEvent := .death ⟨"prod"⟩ ⟨"host-a"⟩ .lastLeapSecond
    ((replay ⟨"prod"⟩ []).apply start).2 ≠ .skipped ∧
      ((replay ⟨"prod"⟩ [start, stop]).apply start).2 ≠ .skipped := by
  intro start stop
  constructor
  · simp [start, apply_first_birth_snd]
  · have expired : ¬Timestamp.lastLeapSecond ≤
        Timestamp.lastLeapSecond.addSeconds Tombstone.retentionSeconds :=
      mt (Timestamp.le_addSeconds_iff (by decide)).mp Timestamp.not_lastLeapSecond_le_latest
    simp [start, stop, apply_reborn_snd expired]

end ObservedState

end Reconciler
