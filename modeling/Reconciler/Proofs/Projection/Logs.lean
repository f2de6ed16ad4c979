import Reconciler.Projection.HostReaper
import Reconciler.Proofs.SortedMap
import Reconciler.Proofs.Timestamp

/-!
# Runs of a projector

What a projector does, told log by log. An event changes the log of its own lattice only, and the
reaper does nothing but apply events. A property of logs that holds of empty logs and is kept by
appending therefore holds of every log of every projector that events and reaping lead to.
-/

namespace Reconciler

namespace LatticeLog

theorem foldl_earlier_le (events : List LatticeEvent) (start : Timestamp) :
    events.foldl (fun time event => time.earlier event.occurredAt) start ≤ start ∧
      ∀ event ∈ events,
        events.foldl (fun time event => time.earlier event.occurredAt) start ≤
          event.occurredAt := by
  induction events generalizing start with
  | nil => simp
  | cons head rest ih =>
      rw [List.foldl_cons, List.forall_mem_cons]
      rcases ih (start.earlier head.occurredAt) with ⟨bound, restBound⟩
      rcases start.earlier_le head.occurredAt with ⟨notAfterStart, notAfterHead⟩
      exact ⟨le_trans bound notAfterStart, le_trans bound notAfterHead, restBound⟩

/-- No event comes before the earliest time of a list that it belongs to. -/
theorem earliest?_le {events : List LatticeEvent} {time : Timestamp}
    (earliest : earliest? events = some time) {event : LatticeEvent} (member : event ∈ events) :
    time ≤ event.occurredAt := by
  cases events with
  | nil => simp at member
  | cons head rest =>
      rcases foldl_earlier_le rest head.occurredAt with ⟨headBound, restBound⟩
      simp only [earliest?, Option.some.injEq] at earliest
      rw [earliest] at headBound restBound
      rcases List.mem_cons.mp member with rfl | inRest
      · exact headBound
      · exact restBound event inRest

theorem ne_nil_of_earliest? {events : List LatticeEvent} {time : Timestamp}
    (earliest : earliest? events = some time) : events ≠ [] := by
  rintro rfl
  simp [earliest?] at earliest

/-- Folding the older half of a tail into the base takes no other events. -/
theorem tail_compact_subset (log : LatticeLog) (limit : Nat) :
    (log.compact limit).tail ⊆ log.tail := by
  simp only [compact]
  split
  · exact List.Subset.refl _
  · split <;> exact List.drop_subset _ _

theorem append_fst (log : LatticeLog) (event : LatticeEvent) (limit : Nat) :
    (log.append event limit).1 =
      (⟨log.base, log.tail ++ [event], log.current.after event⟩ : LatticeLog).compact limit :=
  rfl

/-- What compaction does, given the events that it folds away and those that it keeps. -/
theorem compact_append {base current : ObservedState} {older newer : List LatticeEvent}
    {limit : Nat} {time : Timestamp} (long : limit < older.length + newer.length)
    (half : newer.length = limit / 2) (earliest : earliest? newer = some time) :
    (⟨base, older ++ newer, current⟩ : LatticeLog).compact limit =
      ⟨(base.afterAll older).pruneRetired time, newer,
        if (base.afterAll older).prunedCount time = 0 then current
        else current.pruneRetired time⟩ := by
  have folded : (older ++ newer).length - limit / 2 = older.length := by
    rw [List.length_append]
    omega
  rw [compact, if_neg]
  · simp only [folded, List.take_left, List.drop_left, earliest]
  · simp only [List.length_append]
    omega

theorem earliest?_of_forall {events : List LatticeEvent} {time : Timestamp}
    (nonempty : events ≠ []) (times : ∀ event ∈ events, event.occurredAt = time) :
    earliest? events = some time := by
  cases events with
  | nil => exact absurd rfl nonempty
  | cons head rest =>
      rcases List.forall_mem_cons.mp times with ⟨headTime, restTimes⟩
      have constant : ∀ rest : List LatticeEvent, (∀ event ∈ rest, event.occurredAt = time) →
          rest.foldl (fun time event => time.earlier event.occurredAt) time = time := by
        intro rest times
        induction rest with
        | nil => rfl
        | cons event rest ih =>
            rcases List.forall_mem_cons.mp times with ⟨eventTime, restTimes⟩
            rw [List.foldl_cons, eventTime, Timestamp.earlier_self]
            exact ih restTimes
      rw [earliest?, headTime, constant rest restTimes]

/-- The log after some events. -/
def appendAll (log : LatticeLog) (events : List LatticeEvent) (limit : Nat) : LatticeLog :=
  events.foldl (fun log event => (log.append event limit).1) log

theorem appendAll_cons (log : LatticeLog) (event : LatticeEvent) (rest : List LatticeEvent)
    (limit : Nat) :
    log.appendAll (event :: rest) limit = (log.append event limit).1.appendAll rest limit :=
  rfl

theorem appendAll_append (log : LatticeLog) (first second : List LatticeEvent) (limit : Nat) :
    log.appendAll (first ++ second) limit = (log.appendAll first limit).appendAll second limit :=
  List.foldl_append

/-- A log is not compacted before it outgrows its limit. -/
theorem appendAll_of_short {log : LatticeLog} {events : List LatticeEvent} {limit : Nat}
    (short : log.tail.length + events.length ≤ limit) :
    log.appendAll events limit = ⟨log.base, log.tail ++ events, log.current.afterAll events⟩ := by
  induction events generalizing log with
  | nil => simp [appendAll, ObservedState.afterAll]
  | cons event rest ih =>
      simp only [List.length_cons] at short
      have kept : (log.append event limit).1 =
          ⟨log.base, log.tail ++ [event], log.current.after event⟩ := by
        rw [append_fst, compact, if_pos]
        simp only [List.length_append, List.length_singleton]
        omega
      rw [appendAll_cons, kept]
      refine (ih ?_).trans ?_
      · simp only [List.length_append, List.length_singleton]
        omega
      · simp [ObservedState.afterAll]

end LatticeLog

/-- The events of one lattice among the events of many. -/
def history (lattice : LatticeId) (events : List LatticeEvent) : List LatticeEvent :=
  events.filter fun event => event.lattice = lattice

namespace Projector

/-- The projector after some events. -/
def afterAll (projector : Projector) (events : List LatticeEvent) : Projector :=
  events.foldl (fun projector event => (projector.apply event).1) projector

/-- The projectors that events and reaping at allowed times lead to from an empty one. -/
inductive Reachable (limit : Nat) (allowed : Timestamp → Prop) : Projector → Prop
  | start : Reachable limit allowed (withLimit limit)
  | apply {projector : Projector} (before : Reachable limit allowed projector)
      (event : LatticeEvent) (time : allowed event.occurredAt) :
      Reachable limit allowed (projector.apply event).1
  | reap {projector : Projector} (before : Reachable limit allowed projector)
      (reaper : HostReaper) (now : Timestamp) (time : allowed now) :
      Reachable limit allowed (reaper.reap now projector).1

theorem log_apply (projector : Projector) (event : LatticeEvent) (lattice : LatticeId) :
    (projector.apply event).1.log lattice =
      if lattice = event.lattice then
        ((projector.log event.lattice).append event projector.limit).1
      else projector.log lattice := by
  simp only [apply, log, SortedMap.find?_insert]
  split <;> rfl

/-- The log of a lattice is made of the events of the lattice alone. -/
theorem log_afterAll (projector : Projector) (events : List LatticeEvent) (lattice : LatticeId) :
    (projector.afterAll events).log lattice =
      (projector.log lattice).appendAll (history lattice events) projector.limit := by
  induction events generalizing projector with
  | nil => rfl
  | cons event rest ih =>
      refine (ih (projector.apply event).1).trans ?_
      rw [log_apply, history, history, List.filter_cons]
      by_cases addressed : event.lattice = lattice
      · simp [addressed, LatticeLog.appendAll, apply]
      · simp [addressed, Ne.symm addressed, LatticeLog.appendAll, apply]

end Projector

namespace HostReaper

/-- The stop of a host, where there is one. -/
theorem stopEvent?_eq_some_iff {lattice : LatticeId} {id : HostId} {host : HostState}
    {now : Timestamp} {stop : LatticeEvent} :
    stopEvent? lattice id host now = some stop ↔
      host.highWater ≠ LatticeEvent.lastSequence ∧
        stop = ⟨lattice, id, host.highWater + 1, now, .hostStopped⟩ := by
  rw [stopEvent?]
  split
  · rename_i last
    simp [last]
  · rename_i numbers
    simp [numbers, eq_comm]

theorem stopEvent?_eq_none_iff {lattice : LatticeId} {id : HostId} {host : HostState}
    {now : Timestamp} :
    stopEvent? lattice id host now = none ↔ host.highWater = LatticeEvent.lastSequence := by
  rw [stopEvent?, ite_eq_left_iff]
  simp

/-- What every event at a time keeps is kept by reaping at that time. -/
theorem reapHosts_induction {kept : Projector → Prop} {now : Timestamp}
    (apply : ∀ projector event, event.occurredAt = now → kept projector →
      kept (projector.apply event).1)
    (snapshot : ObservedState) {projector : Projector} (holds : kept projector)
    (ids : List HostId) : kept (reapHosts now snapshot projector ids).1 := by
  induction ids generalizing projector with
  | nil => exact holds
  | cons id rest ih =>
      rw [reapHosts]
      cases snapshot.host? id with
      | none => exact ih holds
      | some host =>
          simp only
          cases given : stopEvent? snapshot.lattice id host now with
          | none => exact holds
          | some stop =>
              have atNow : stop.occurredAt = now := by
                rw [(stopEvent?_eq_some_iff.mp given).2]
              have stepped := ih (apply projector stop atNow holds)
              simp only
              split <;> exact stepped

theorem reapLattices_induction {kept : Projector → Prop} {now : Timestamp}
    (apply : ∀ projector event, event.occurredAt = now → kept projector →
      kept (projector.apply event).1)
    (reaper : HostReaper) {projector : Projector} (holds : kept projector)
    (lattices : List LatticeId) : kept (reaper.reapLattices now projector lattices).1 := by
  induction lattices generalizing projector with
  | nil => exact holds
  | cons lattice rest ih =>
      have stepped := reapHosts_induction apply (projector.snapshot lattice) holds
        (reaper.expired (projector.snapshot lattice) now)
      rw [reapLattices]
      simp only
      split
      · rename_i broken
        rwa [broken] at stepped
      · rename_i next hosts answered
        rw [answered] at stepped
        exact ih stepped

end HostReaper

namespace Projector.Reachable

variable {limit : Nat} {allowed : Timestamp → Prop} {projector : Projector}

/-- What holds at the start and is kept by every event at an allowed time holds all along. -/
theorem apply_induction (kept : Projector → Prop) (start : kept (withLimit limit))
    (apply : ∀ projector event, allowed event.occurredAt → kept projector →
      kept (projector.apply event).1)
    (reachable : Reachable limit allowed projector) : kept projector := by
  induction reachable with
  | start => exact start
  | apply before event time ih => exact apply _ event time ih
  | reap before reaper now time ih =>
      exact HostReaper.reapLattices_induction
        (fun projector event atNow => apply projector event (atNow ▸ time)) reaper ih _

/-- What empty logs have and appending keeps, all logs of a reachable projector have. -/
theorem log_induction (kept : LatticeLog → Prop) (empty : ∀ lattice, kept (.empty lattice))
    (append : ∀ log event, allowed event.occurredAt → kept log →
      kept (log.append event (max limit 2)).1)
    (reachable : Reachable limit allowed projector) (lattice : LatticeId) :
    kept (projector.log lattice) := by
  have all : projector.limit = max limit 2 ∧ ∀ lattice, kept (projector.log lattice) := by
    refine reachable.apply_induction (fun projector => projector.limit = max limit 2 ∧
      ∀ lattice, kept (projector.log lattice)) ⟨rfl, empty⟩ ?_
    rintro projector event time ⟨same, logs⟩
    refine ⟨same, fun lattice => ?_⟩
    rw [log_apply, same]
    split
    · exact append _ event time (logs _)
    · exact logs lattice
  exact all.2 lattice

end Projector.Reachable

end Reconciler
