import Reconciler.Proofs.Projection.Expiry

/-!
# Compaction of logs

A log that outgrows its limit folds its older half into its base and forgets tombstones that expired
before the rest. The state rebuilt from base and tail stays the state of the log, as long as no
event lies past the last point in time that a tombstone can expire at; there a tombstone expires
before the stop that it remembers, and the two states part.
-/

namespace Reconciler

namespace LatticeLog

/-- Compaction keeps the rebuilt state and the state of the log together. -/
theorem rebuild_compact {log : LatticeLog} (limit : Nat) (faithful : log.rebuild = log.current)
    (reachable : ∀ event ∈ log.tail, event.occurredAt ≤ .latest) :
    (log.compact limit).rebuild = (log.compact limit).current := by
  rw [compact]
  split
  · exact faithful
  · simp only
    have inTwoParts : (log.base.afterAll (log.tail.take (log.tail.length - limit / 2))).afterAll
        (log.tail.drop (log.tail.length - limit / 2)) = log.current := by
      rw [← ObservedState.afterAll_append, List.take_append_drop]
      exact faithful
    split
    · exact inTwoParts
    · rename_i time earliest
      have times : ∀ event ∈ log.tail.drop (log.tail.length - limit / 2),
          time ≤ event.occurredAt ∧ event.occurredAt ≤ .latest :=
        fun event member =>
          ⟨earliest?_le earliest member, reachable event (List.mem_of_mem_drop member)⟩
      simp only [rebuild]
      split
      · rename_i nothing
        -- The base is pruned in any case, the state only if the base had something to forget.
        rw [ObservedState.prunedCount_eq_zero_iff.mp nothing]
        exact inTwoParts
      · rw [ObservedState.afterAll_pruneRetired _ times, inTwoParts]

/-- Compaction leaves no more events than the limit. -/
theorem length_compact_le (log : LatticeLog) (limit : Nat) :
    (log.compact limit).tail.length ≤ limit := by
  rw [compact]
  split
  · assumption
  · simp only
    split <;> simp only [List.length_drop] <;> omega

/-- A log that rebuilds its state, and whose tail lies in the range in which tombstones expire. -/
structure Faithful (log : LatticeLog) : Prop where
  rebuild : log.rebuild = log.current
  reachable : ∀ event ∈ log.tail, event.occurredAt ≤ .latest

theorem Faithful.append {log : LatticeLog} (faithful : log.Faithful) {event : LatticeEvent}
    (reachable : event.occurredAt ≤ .latest) (limit : Nat) :
    (log.append event limit).1.Faithful := by
  have longer : ∀ older ∈ log.tail ++ [event], older.occurredAt ≤ .latest := by
    intro older member
    rcases List.mem_append.mp member with inTail | isEvent
    · exact faithful.reachable older inTail
    · rwa [List.mem_singleton.mp isEvent]
  rw [append_fst]
  refine ⟨rebuild_compact limit ?_ longer, fun older member => ?_⟩
  · rw [LatticeLog.rebuild, ObservedState.afterAll_append]
    exact congrArg (·.after event) faithful.rebuild
  · exact longer older (tail_compact_subset _ limit member)

end LatticeLog

namespace Projector

variable {limit : Nat} {allowed : Timestamp → Prop} {projector : Projector}

/-- Compaction keeps the logs of a reachable projector within the limit. -/
theorem Reachable.logLength_le (reachable : Reachable limit allowed projector)
    (lattice : LatticeId) : projector.logLength lattice ≤ max limit 2 :=
  reachable.log_induction (fun log => log.tail.length ≤ max limit 2) (fun _ => Nat.zero_le _)
    (fun _ _ _ _ => LatticeLog.length_compact_le _ _) lattice

/-- At times that tombstones can expire at, every log rebuilds its state. -/
theorem Reachable.faithful (reachable : Reachable limit allowed projector)
    (times : ∀ time, allowed time → time ≤ .latest) (lattice : LatticeId) :
    (projector.log lattice).Faithful := by
  apply reachable.log_induction LatticeLog.Faithful
  · intro lattice
    exact ⟨rfl, by simp [LatticeLog.empty]⟩
  · intro log event time faithful
    exact faithful.append (times _ time) _

theorem Reachable.afterAll (reachable : Reachable limit allowed projector)
    {events : List LatticeEvent} (times : ∀ event ∈ events, allowed event.occurredAt) :
    Reachable limit allowed (projector.afterAll events) := by
  induction events generalizing projector with
  | nil => exact reachable
  | cons event rest ih =>
      rcases List.forall_mem_cons.mp times with ⟨time, restTimes⟩
      exact ih (reachable.apply event time) restTimes

/-- Past all expiries, a crowded log and its state part. -/
theorem rebuild_crowded_ne {lattice : LatticeId} {first second : HostId} {time : Timestamp}
    (distinct : first ≠ second) (past : ¬time ≤ .latest) (limit : Nat) :
    ((withLimit limit).afterAll (LatticeLog.crowded lattice first second time (max limit 2) ++
        [.death lattice second time])).rebuild lattice ≠
      ((withLimit limit).afterAll (LatticeLog.crowded lattice first second time (max limit 2) ++
        [.death lattice second time])).snapshot lattice := by
  have ownEvents : history lattice (LatticeLog.crowded lattice first second time (max limit 2) ++
      [.death lattice second time]) =
        LatticeLog.crowded lattice first second time (max limit 2) ++
          [.death lattice second time] := by
    rw [history, List.filter_eq_self, List.forall_mem_append, List.forall_mem_singleton]
    exact ⟨fun event member => decide_eq_true (LatticeLog.mem_crowded member).1, by simp⟩
  rw [rebuild, snapshot, log_afterAll, ownEvents, LatticeLog.appendAll_append]
  exact LatticeLog.rebuild_ne_current distinct (le_max_right limit 2) past

/--
Logs never outgrow their limit. They rebuild their states, tombstones included, exactly if no event
comes at a time past the last expiry that a tombstone can have.
-/
theorem rebuild_eq_snapshot_iff (limit : Nat) (allowed : Timestamp → Prop) :
    (∀ projector, Reachable limit allowed projector → ∀ lattice,
      projector.logLength lattice ≤ max limit 2) ∧
    ((∀ projector, Reachable limit allowed projector → ∀ lattice,
      projector.rebuild lattice = projector.snapshot lattice) ↔
        ∀ time, allowed time → time ≤ .latest) := by
  refine ⟨fun projector reachable => reachable.logLength_le, ?_, ?_⟩
  · intro faithful time timeAllowed
    by_contra past
    have distinct : (⟨"host-a"⟩ : HostId) ≠ ⟨"host-b"⟩ := by decide
    refine rebuild_crowded_ne distinct past limit (faithful _ ?_ ⟨"lattice"⟩)
    apply Reachable.start.afterAll
    rw [List.forall_mem_append, List.forall_mem_singleton]
    exact ⟨fun event member => (LatticeLog.mem_crowded member).2 ▸ timeAllowed, timeAllowed⟩
  · intro times projector reachable lattice
    exact (reachable.faithful times lattice).rebuild

/-- Five events in the last leap second part the state of a log of two events from its rebuild. -/
theorem rebuild_ne_snapshot_of_lastLeapSecond :
    ((withLimit 2).afterAll [
        .birth ⟨"prod"⟩ ⟨"host-b"⟩ .lastLeapSecond, .birth ⟨"prod"⟩ ⟨"host-b"⟩ .lastLeapSecond,
        .birth ⟨"prod"⟩ ⟨"host-a"⟩ .lastLeapSecond, .death ⟨"prod"⟩ ⟨"host-a"⟩ .lastLeapSecond,
        .death ⟨"prod"⟩ ⟨"host-b"⟩ .lastLeapSecond]).rebuild ⟨"prod"⟩ ≠
      ((withLimit 2).afterAll [
        .birth ⟨"prod"⟩ ⟨"host-b"⟩ .lastLeapSecond, .birth ⟨"prod"⟩ ⟨"host-b"⟩ .lastLeapSecond,
        .birth ⟨"prod"⟩ ⟨"host-a"⟩ .lastLeapSecond, .death ⟨"prod"⟩ ⟨"host-a"⟩ .lastLeapSecond,
        .death ⟨"prod"⟩ ⟨"host-b"⟩ .lastLeapSecond]).snapshot ⟨"prod"⟩ :=
  rebuild_crowded_ne (by decide) Timestamp.not_lastLeapSecond_le_latest 2

end Projector

end Reconciler
