import Reconciler.Proofs.Dispatch.Acknowledgements
import Reconciler.Proofs.Dispatch.Waits

/-!
# Commands with an observed effect

A command under way is marked when something happens where it is to have its effect. The mark stays
for as long as the command is tracked. A sweep drops a marked command once its time is up, and does
not send it again; an acknowledgement drops it only if it says that the command has succeeded.
-/

namespace Reconciler

namespace Entry

variable {policy : RetryPolicy} {now : Moment} {key : IdempotencyKey} {entry : Entry}

theorem swept_eq_none_iff_of_observed (inFlight : entry.isInFlight = true)
    (observed : entry.observed = true) :
    entry.swept policy now key = none ↔ entry.state.time ≤ now.elapsed := by
  cases state : entry.state with
  | awaitingAck deadline =>
      simp [swept, Dispatcher.isOverdue, Dispatcher.isDue, Dispatcher.isExpired, state, observed,
        EntryState.time]
  | backoff retryAt =>
      simp [swept, Dispatcher.isOverdue, Dispatcher.isDue, Dispatcher.isExpired, state, observed,
        EntryState.time]
  | settled expiresAt => simp [isInFlight, EntryState.isInFlight, state] at inFlight
  | failed expiresAt report => simp [isInFlight, EntryState.isInFlight, state] at inFlight

theorem key_of_report?_failedOnce {reason : String} {retryable : Bool} {report : FailureReport}
    (failed : (entry.failedOnce policy now key reason retryable).state.report? = some report) :
    report.key = key := by
  rw [report?_failedOnce] at failed
  split at failed
  · cases failed
  · obtain rfl := Option.some.inj failed
    rfl

theorem key_of_report?_resent {slow : Dispatcher.SlowTransport} {report : FailureReport}
    (failed : (entry.resent policy now slow).state.report? = some report) :
    report.key = entry.command.key := by
  simp only [resent] at failed
  cases answered : slow.result (entry.offeredAgain policy now slow).command with
  | none =>
      rw [answered] at failed
      cases failed
  | some problem =>
      rw [answered] at failed
      cases problem with
      | transient reason => exact key_of_report?_failedOnce failed
      | fatal reason => exact key_of_report?_failedOnce failed

end Entry

namespace Dispatcher

/-- Neither a key nor a handle is tracked. -/
def HasDropped (dispatcher : Dispatcher) (key : IdempotencyKey) (handle : CommandHandle) : Prop :=
  dispatcher.entries.find? key = none ∧ dispatcher.handles.find? handle = none

section Observed

variable {dispatcher : Dispatcher} {offered : List Command} {key : IdempotencyKey} {entry : Entry}
  {now : Moment}

theorem hasDropped_retire (found : dispatcher.entries.find? key = some entry) :
    (dispatcher.retire key entry.command.handle).1.HasDropped key entry.command.handle := by
  rw [retire_of_found found]
  constructor
  · exact (SortedMap.find?_erase ..).trans (if_pos rfl)
  · exact (SortedMap.find?_erase ..).trans (if_pos rfl)

/-- With the entry of a command its handle goes. -/
theorem Upkeep.hasDropped_iff (tracks : dispatcher.Tracks offered) (indexed : dispatcher.Indexed)
    (found : dispatcher.entries.find? key = some entry) {next : Dispatcher} {more : List Command}
    (upkeep : Upkeep dispatcher more next) :
    next.HasDropped key entry.command.handle ↔ next.entries.find? key = none := by
  refine and_iff_left_of_imp fun gone => ?_
  refine (indexed.upkeep upkeep).find?_handles_eq_none fun other held => ?_
  rcases handleAt?_eq_some_iff.mp held with ⟨left, leftFound, leftNamed⟩
  rcases upkeep.descends entry.command.handle other left leftFound leftNamed with
    ⟨older, olderFound, olderNamed, _⟩
  obtain rfl := tracks.eq_of_handle_eq olderFound found olderNamed
  rw [gone] at leftFound
  cases leftFound

/-- A marked command is none of those that a sweep sends again. -/
theorem ne_of_mem_dueEntries (tracks : dispatcher.Tracks offered)
    (found : dispatcher.entries.find? key = some entry) (observed : entry.observed = true)
    {order : SweepOrder} {other : Entry} (due : other ∈ dispatcher.dueEntries now order) :
    other.command.key ≠ key ∧ other.command.handle ≠ entry.command.handle := by
  rcases (mem_dueEntries_iff tracks.keyed).mp due with ⟨otherFound, unobserved, _⟩
  have otherKey : other.command.key ≠ key := by
    rintro rfl
    obtain rfl : other = entry := Option.some.inj (otherFound.symm.trans found)
    exact Bool.false_ne_true (unobserved.symm.trans observed)
  exact ⟨otherKey, fun same => otherKey (tracks.eq_of_handle_eq otherFound found same)⟩

/-- A sweep treats a marked command before it sends anything, and tells nothing of it. -/
theorem reapSlowly_of_observed (now : Moment) (tracks : dispatcher.Tracks offered)
    (found : dispatcher.entries.find? key = some entry) (observed : entry.observed = true)
    (slow : SlowTransport) (order : SweepOrder) :
    let outcome := dispatcher.reapSlowly now slow order
    outcome.dispatcher.entries.find? key = entry.swept dispatcher.policy now key ∧
      (∀ command ∈ outcome.offered, command.handle ≠ entry.command.handle) ∧
      ∀ report, outcome.answer = .ok report →
        (∀ retry ∈ report.retried, retry.1 ≠ key) ∧
          ∀ failure ∈ report.failed, failure.key ≠ key := by
  intro outcome
  rcases reapSlowly_spec tracks.keyed slow order with
    ⟨sent, rest, parts, offers, found?, ending⟩
  have others : ∀ other ∈ sent,
      other.command.key ≠ key ∧ other.command.handle ≠ entry.command.handle := fun other member =>
    ne_of_mem_dueEntries tracks found observed (parts ▸ List.mem_append_left rest member)
  refine ⟨?_, ?_, ?_⟩
  · have unsent : key ∉ sent.map fun entry => entry.command.key := by
      intro member
      rcases List.mem_map.mp member with ⟨other, isSent, same⟩
      exact (others other isSent).1 same
    rw [found?, found, Option.bind_some, if_neg unsent]
  · intro command member
    rw [offers] at member
    rcases List.mem_map.mp member with ⟨other, isSent, rfl⟩
    exact (others other isSent).2
  · intro report answered
    rw [answered] at ending
    cases ending
    constructor
    · intro retry member
      rcases List.mem_map.mp member with ⟨other, isSent, rfl⟩
      exact (others other isSent).1
    · intro failure member
      rcases List.mem_append.mp member with begun | resent
      · rcases mem_failed_beginSweep_iff.mp begun with
          ⟨other, former, formerFound, unobserved, _, failed⟩
        rw [Entry.key_of_report?_failedOnce failed]
        rintro rfl
        obtain rfl : former = entry := Option.some.inj (formerFound.symm.trans found)
        exact Bool.false_ne_true (unobserved.symm.trans observed)
      · rcases List.mem_filterMap.mp resent with ⟨other, isSent, failed⟩
        rw [Entry.key_of_report?_resent failed]
        exact (others other isSent).1

/-- What is answered to an acknowledgement of a command that is under way. -/
def answerTo (policy : RetryPolicy) (now : Moment) (key : IdempotencyKey) (entry : Entry) :
    AckResult → AckOutcome
  | .success => .settled
  | .failure retryable reason =>
    if retryable && !policy.isExhausted entry.command.attempt then
      .retrying entry.command.attempt (policy.backoff entry.command.attempt)
    else .failed (failureReport now key entry reason)

theorem answer_recordFailure_of_inFlight (found : dispatcher.entries.find? key = some entry)
    (inFlight : entry.isInFlight = true) (reason : String) (retryable : Bool) :
    (dispatcher.recordFailure now key entry.command.handle reason retryable).2 =
      answerTo dispatcher.policy now key entry (.failure retryable reason) := by
  simp only [recordFailure, found, inFlight, ne_eq, not_true_eq_false, Bool.not_true,
    Bool.false_eq_true, or_self, if_false, answerTo]
  split <;> rfl

/-- Of the acknowledgements of a marked command, only those of success drop it. -/
theorem onAck_of_observed (indexed : dispatcher.Indexed)
    (found : dispatcher.entries.find? key = some entry) (inFlight : entry.isInFlight = true)
    (observed : entry.observed = true) {ack : CommandAck}
    (named : ack.handle = entry.command.handle) :
    ((dispatcher.onAck now ack).1.HasDropped key ack.handle ↔ ack.result = .success) ∧
      (dispatcher.onAck now ack).2 = .ok (answerTo dispatcher.policy now key entry ack.result) := by
  rw [onAck_of_indexed indexed found named, named]
  cases ack.result with
  | success =>
      simp only [recordSuccess_of_found found, observed, if_true, iff_true]
      exact ⟨hasDropped_retire found, rfl⟩
  | failure retryable reason =>
      simp only [answer_recordFailure_of_inFlight found inFlight,
        dispatcher.recordFailure_of_inFlight now key found inFlight, and_true]
      refine iff_of_false (fun dropped => ?_) AckResult.noConfusion
      have gone := dropped.1
      rw [SortedMap.find?_insert, if_pos rfl] at gone
      cases gone

end Observed

/--
However a dispatcher was used, and whatever has come of a command under way since its effect was
observed: an acknowledgement drops the command exactly if it says that the command has succeeded; a
failure is taken as one of any other command, to be sent again or reported. A sweep drops the
command exactly if its time is up, and neither offers it nor tells of it.
-/
theorem dropped_iff_of_observed (policy : RetryPolicy) (source : Nat) (moves : List Move)
    (now : Moment) {key : IdempotencyKey} {entry : Entry}
    (found : ((new policy source).performAll moves).1.entries.find? key = some entry)
    (inFlight : entry.isInFlight = true) (observed : entry.observed = true) :
    let dispatcher := ((new policy source).performAll moves).1
    (∀ ack, ack.handle = entry.command.handle →
      ((dispatcher.onAck now ack).1.HasDropped key ack.handle ↔ ack.result = .success) ∧
      (dispatcher.onAck now ack).2 = .ok (answerTo policy now key entry ack.result)) ∧
    ∀ slow order, let outcome := dispatcher.reapSlowly now slow order
      (outcome.dispatcher.HasDropped key entry.command.handle ↔
        entry.state.time ≤ now.elapsed) ∧
      (∀ command ∈ outcome.offered, command.handle ≠ entry.command.handle) ∧
      ∀ report, outcome.answer = .ok report →
        (∀ retry ∈ report.retried, retry.1 ≠ key) ∧
          ∀ failure ∈ report.failed, failure.key ≠ key := by
  intro dispatcher
  have tracks : dispatcher.Tracks _ := tracks_performAll policy source moves
  have indexed : dispatcher.Indexed := indexed_performAll policy source moves
  have samePolicy : dispatcher.policy = policy := performAll_policy (new policy source) moves
  refine ⟨?_, ?_⟩
  · intro ack named
    rw [← samePolicy]
    exact onAck_of_observed indexed found inFlight observed named
  · intro slow order outcome
    have swept := reapSlowly_of_observed now tracks found observed slow order
    have dropped := Upkeep.hasDropped_iff tracks indexed found
      (dispatcher.upkeep_reapSlowly now slow order)
    refine ⟨?_, swept.2⟩
    rw [dropped, swept.1]
    exact Entry.swept_eq_none_iff_of_observed inFlight observed

/-- The effect of a start is observed, and its acknowledgement or a sweep drops it. -/
theorem dropped_iff_of_observed_start :
    let start : RequiredAction :=
      .startInstances ⟨"shop-api"⟩ .component "registry/api:1" ⟨"host-a"⟩ ∅ 1
    let moves : List Move :=
      [.dispatch ⟨0, ⟨0, 0⟩⟩ ⟨"prod"⟩ ⟨"shop"⟩ start none,
        .observe ⟨"prod"⟩ ⟨"shop-api"⟩ (some ⟨"host-a"⟩)]
    let dispatcher := ((new .standard 0).performAll moves).1
    let now : Moment := ⟨10000, ⟨10, 0⟩⟩
    let key := start.idempotencyKey ⟨"prod"⟩
    let handle : CommandHandle := .ofNumbers 0 0
    ∃ entry, dispatcher.entries.find? key = some entry ∧ entry.isInFlight = true ∧
      entry.observed = true ∧
      (dispatcher.onAck now ⟨handle, default, .success⟩).1.HasDropped key handle ∧
      ∀ slow order, (dispatcher.reapSlowly now slow order).dispatcher.HasDropped key handle := by
  intro start moves dispatcher now key handle
  have tracked : (dispatcher.entries.find? key).any (fun entry =>
      entry.isInFlight && entry.observed && entry.command.handle == handle &&
        entry.state.time ≤ now.elapsed) = true := by decide +kernel
  rcases (Option.any_eq_true _ _).mp tracked with ⟨entry, found, known⟩
  simp only [Bool.and_eq_true, beq_iff_eq, decide_eq_true_eq] at known
  rcases known with ⟨⟨⟨inFlight, observed⟩, named⟩, late⟩
  have dropped := dropped_iff_of_observed .standard 0 moves now found inFlight observed
  refine ⟨entry, found, inFlight, observed, ?_, fun slow order => ?_⟩
  · exact (dropped.1 ⟨handle, default, .success⟩ named.symm).1.mpr rfl
  · exact named ▸ (dropped.2 slow order).1.mpr late

/--
The effect of a start is observed, but when it is rejected it stays under way, to be sent again, or
is reported to have failed.
-/
theorem kept_though_observed :
    let start : RequiredAction :=
      .startInstances ⟨"shop-api"⟩ .component "registry/api:1" ⟨"host-a"⟩ ∅ 1
    let key := start.idempotencyKey ⟨"prod"⟩
    let moves : List Move :=
      [.dispatch ⟨0, ⟨0, 0⟩⟩ ⟨"prod"⟩ ⟨"shop"⟩ start none,
        .observe ⟨"prod"⟩ ⟨"shop-api"⟩ (some ⟨"host-a"⟩)]
    let dispatcher := ((new .standard 0).performAll moves).1
    let rejected (retryable : Bool) := (dispatcher.onAck ⟨100, ⟨0, 0⟩⟩
      ⟨.ofNumbers 0 0, default, .failure retryable "rejected"⟩).1
    (dispatcher.entries.find? key).any (fun entry => entry.isInFlight && entry.observed) = true ∧
      (rejected true).isInFlight key = true ∧
      ((rejected false).failuresFor ⟨"prod"⟩ ⟨"shop"⟩).map FailureReport.reason = ["rejected"] ∧
      ∀ retryable, ¬(rejected retryable).HasDropped key (.ofNumbers 0 0) := by
  intro start key moves dispatcher rejected
  have kept : ∀ retryable, ((rejected retryable).entries.find? key).isSome = true := by
    decide +kernel
  refine ⟨by decide +kernel, by decide +kernel, by decide +kernel, fun retryable dropped => ?_⟩
  have stillThere := kept retryable
  rw [dropped.1] at stillThere
  cases stillThere

end Dispatcher

end Reconciler
