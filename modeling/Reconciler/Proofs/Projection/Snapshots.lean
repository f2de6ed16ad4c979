import Reconciler.Proofs.Projection.Refinement

/-!
# Events and the states of lattices

What an event does to the state of a lattice that a projector keeps. It is what the event does to
the state itself, but that appending the event may compact the log, which forgets at most tombstones
that expired before the event. The other lattices are left alone.
-/

namespace Reconciler

namespace LatticeLog

@[simp]
theorem lattice_current_append (log : LatticeLog) (event : LatticeEvent) (limit : Nat) :
    (log.append event limit).1.current.lattice = log.current.lattice := by
  rw [append_fst, ← log.current.lattice_after event]
  rcases current_compact ⟨log.base, log.tail ++ [event], log.current.after event⟩ limit with
    same | ⟨_, _, _, _, same⟩ <;> rw [same]
  rfl

/-- Appending an event forgets at most what expired before the event. -/
theorem forgets_append (log : LatticeLog) (event : LatticeEvent) {limit : Nat} (two : 2 ≤ limit) :
    (log.append event limit).1.current.Forgets (log.current.after event) event.occurredAt := by
  have whole := ObservedState.Forgets.refl (log.current.after event) event.occurredAt
  simp only [append_fst, compact]
  split
  · exact whole
  · rename_i long
    split
    · exact whole
    · rename_i time earliest
      -- The event is the last of the tail, so that it is among those that are kept.
      have inTail : (log.tail ++ [event]).length - limit / 2 ≤ log.tail.length := by
        rw [List.length_append, List.length_singleton]
        omega
      have kept : event ∈ (log.tail ++ [event]).drop
          ((log.tail ++ [event]).length - limit / 2) := by
        rw [List.drop_append_of_le_length inTail]
        exact List.mem_append_right _ (List.mem_singleton_self event)
      simp only
      split
      · exact whole
      · exact whole.pruneRetired (earliest?_le earliest kept)

/--
Appending an event to a full log that keeps one event forgets what expired before the event, if any
tombstone did.
-/
theorem current_append_of_full {log : LatticeLog} {event : LatticeEvent} {limit : Nat}
    (full : log.tail.length = limit) (one : limit / 2 = 1)
    (expired : log.rebuild.prunedCount event.occurredAt ≠ 0) :
    (log.append event limit).1.current =
      (log.current.after event).pruneRetired event.occurredAt := by
  have long : limit < log.tail.length + [event].length := by
    rw [full, List.length_singleton]
    exact Nat.lt_succ_self limit
  rw [append_fst, compact_append long one.symm rfl]
  exact if_neg expired

end LatticeLog

namespace Projector

variable {projector : Projector} {lattice : LatticeId} {id : HostId}

theorem nodup_lattices (projector : Projector) : projector.lattices.Nodup :=
  SortedMap.nodup_keys projector.logs

theorem snapshot_of_not_mem (unknown : lattice ∉ projector.lattices) :
    projector.snapshot lattice = .empty lattice := by
  have absent : projector.logs.find? lattice = none := by
    rw [lattices, SortedMap.mem_keys_iff, not_exists] at unknown
    exact Option.eq_none_iff_forall_ne_some.mpr unknown
  rw [snapshot, log, absent]
  rfl

theorem apply_snd (projector : Projector) (event : LatticeEvent) :
    (projector.apply event).2 = ((projector.snapshot event.lattice).apply event).2 :=
  rfl

theorem snapshot_apply_of_ne {event : LatticeEvent} (other : lattice ≠ event.lattice) :
    (projector.apply event).1.snapshot lattice = projector.snapshot lattice := by
  rw [snapshot, log_apply, if_neg other, snapshot]

theorem forgets_snapshot_apply (two : 2 ≤ projector.limit) (event : LatticeEvent) :
    ((projector.apply event).1.snapshot event.lattice).Forgets
      ((projector.snapshot event.lattice).after event) event.occurredAt := by
  rw [snapshot, log_apply, if_pos rfl]
  exact LatticeLog.forgets_append _ event two

/-- An event is taken unless its host holds it back. -/
theorem apply_snd_ne_skipped_iff {event : LatticeEvent}
    (own : (projector.snapshot event.lattice).lattice = event.lattice) :
    (projector.apply event).2 ≠ .skipped ↔
      ((projector.snapshot event.lattice).standing event.host).isStale event = false := by
  rw [apply_snd, ne_eq, ObservedState.apply_snd_eq_skipped_iff, not_not, ObservedState.takes,
    and_iff_right own.symm]

/-- The host of an event lives afterwards as the event leaves it. -/
theorem host?_apply (two : 2 ≤ projector.limit) {event : LatticeEvent}
    (own : (projector.snapshot event.lattice).lattice = event.lattice) :
    ((projector.apply event).1.snapshot event.lattice).host? event.host =
      (((projector.snapshot event.lattice).standing event.host).after event).live := by
  have live := ((forgets_snapshot_apply two event).standing event.host).live
  rw [ObservedState.standing_after, if_pos ⟨own.symm, rfl⟩] at live
  exact live

/-- An event of another host forgets at most a tombstone that expired before the event. -/
theorem forgets_apply_of_apart (two : 2 ≤ projector.limit) {event : LatticeEvent}
    (apart : event.lattice = lattice → event.host ≠ id) {full : Standing} {time : Timestamp}
    (forgets : ((projector.snapshot lattice).standing id).Forgets full time) :
    ∃ later, (later = time ∨ event.lattice = lattice ∧ event.occurredAt = later) ∧
      (((projector.apply event).1.snapshot lattice).standing id).Forgets full later := by
  by_cases addressed : event.lattice = lattice
  · subst addressed
    have step := (forgets_snapshot_apply two event).standing id
    rw [ObservedState.standing_after, if_neg fun own => apart rfl own.2.symm] at step
    rcases le_total time event.occurredAt with notLater | notEarlier
    · exact ⟨event.occurredAt, Or.inr ⟨rfl, rfl⟩, step.trans (forgets.mono notLater)⟩
    · exact ⟨time, Or.inl rfl, (step.mono notEarlier).trans forgets⟩
  · rw [snapshot_apply_of_ne (Ne.symm addressed)]
    exact ⟨time, Or.inl rfl, forgets⟩

/-- Events of other hosts forget at most a tombstone that expired before one of them. -/
theorem forgets_afterAll_of_apart (two : 2 ≤ projector.limit) {events : List LatticeEvent}
    (apart : ∀ event ∈ events, event.lattice = lattice → event.host ≠ id) {full : Standing}
    {time : Timestamp} (forgets : ((projector.snapshot lattice).standing id).Forgets full time) :
    ∃ later, (later = time ∨
        ∃ event ∈ events, event.lattice = lattice ∧ event.occurredAt = later) ∧
      (((projector.afterAll events).snapshot lattice).standing id).Forgets full later := by
  induction events generalizing projector time with
  | nil => exact ⟨time, Or.inl rfl, forgets⟩
  | cons event rest ih =>
      rcases List.forall_mem_cons.mp apart with ⟨eventApart, restApart⟩
      rcases forgets_apply_of_apart two eventApart forgets with ⟨next, isTime, stepped⟩
      have twoNext : 2 ≤ (projector.apply event).1.limit := two
      rcases ih twoNext restApart stepped with ⟨later, rfl | ⟨other, member, own⟩, atEnd⟩
      · refine ⟨later, isTime.imp_right fun own => ?_, atEnd⟩
        exact ⟨event, List.mem_cons_self, own⟩
      · exact ⟨later, Or.inr ⟨other, List.mem_cons_of_mem _ member, own⟩, atEnd⟩

namespace Reachable

variable {limit : Nat} {allowed : Timestamp → Prop} {projector : Projector}

theorem limit_eq (reachable : Reachable limit allowed projector) :
    projector.limit = max limit 2 :=
  reachable.apply_induction (fun projector => projector.limit = max limit 2) rfl
    fun _ _ _ same => same

theorem two_le_limit (reachable : Reachable limit allowed projector) : 2 ≤ projector.limit :=
  reachable.limit_eq ▸ le_max_right limit 2

/-- The state of a lattice is a state of that lattice. -/
theorem lattice_snapshot (reachable : Reachable limit allowed projector) (lattice : LatticeId) :
    (projector.snapshot lattice).lattice = lattice := by
  have all : ∀ lattice, (projector.snapshot lattice).lattice = lattice := by
    refine reachable.apply_induction (fun projector =>
      ∀ lattice, (projector.snapshot lattice).lattice = lattice) (fun _ => rfl) ?_
    intro projector event _ own lattice
    rw [snapshot, log_apply]
    split
    · rename_i addressed
      rw [addressed, LatticeLog.lattice_current_append]
      exact own event.lattice
    · exact own lattice
  exact all lattice

end Reachable

end Projector

end Reconciler
