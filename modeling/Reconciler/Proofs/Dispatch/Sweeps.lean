import Reconciler.Proofs.Dispatch.LookUps

/-!
# What sweeps make of single commands

A sweep treats each command on its own: what becomes of one does not depend on the others, but for a
transport that is gone, which ends the sweep. `Dispatcher.reapSlowly_spec` says which commands are
offered, what is left under each key, and what is reported.
-/

namespace Reconciler

/-- The report that a command has failed for good, if it has. -/
def EntryState.report? : EntryState → Option FailureReport
  | failed _ report => some report
  | _ => none

theorem EntryState.report?_of_isInFlight {state : EntryState} (inFlight : state.isInFlight = true) :
    state.report? = none := by
  cases state with
  | failed expiresAt report => cases inFlight
  | _ => rfl

theorem Entry.report?_failedOnce (policy : RetryPolicy) (now : Moment) (entry : Entry)
    (key : IdempotencyKey) (reason : String) (retryable : Bool) :
    (entry.failedOnce policy now key reason retryable).state.report? =
      if retryable && !policy.isExhausted entry.command.attempt then none
      else some (Dispatcher.failureReport now key entry reason) := by
  simp only [failedOnce]
  split <;> rfl

namespace Dispatcher

/-- The commands that a sweep sends again in an order, if the transport lasts. -/
def dueEntries (dispatcher : Dispatcher) (now : Moment) (order : SweepOrder) : List Entry :=
  (order.arrange (dispatcher.beginSweep now).2.2).filterMap dispatcher.entries.find?

section Beginning

variable (dispatcher : Dispatcher) (now : Moment) (key : IdempotencyKey)

theorem find?_beginSweep :
    (dispatcher.beginSweep now).1.entries.find? key =
      (dispatcher.entries.find? key).bind (Entry.swept dispatcher.policy now key) := by
  simp only [beginSweep]
  rw [find?_retireAll, find?_timeOutAll _ _ _ (dispatcher.nodup_select _), find?_retireAll,
    (dispatcher.upkeep_retireAll _).policy_eq]
  cases found : dispatcher.entries.find? key with
  | none => rfl
  | some entry =>
      have selected : ∀ test, (key, entry.command.handle) ∈ dispatcher.select test ↔
          test entry = true := by
        intro test
        rw [mem_select_iff]
        constructor
        · rintro ⟨_, same, passes, _⟩
          exact Option.some.inj (found.symm.trans same) ▸ passes
        · exact fun passes => ⟨entry, found, passes, rfl⟩
      -- Only a command that waits for its acknowledgement can be overdue, and only one that waits
      -- to be sent again can be due.
      cases state : entry.state with
      | awaitingAck deadline =>
          by_cases late : deadline ≤ now.elapsed <;> cases observed : entry.observed <;>
            simp [Option.filter_some, selected, Entry.swept, isOverdue, isDue, isExpired, state,
              late, observed, Entry.isInFlight, EntryState.isInFlight]
      | backoff retryAt =>
          by_cases late : retryAt ≤ now.elapsed <;> cases observed : entry.observed <;>
            simp [Option.filter_some, selected, Entry.swept, isOverdue, isDue, isExpired, state,
              late, observed]
      | settled expiresAt =>
          by_cases late : expiresAt ≤ now.elapsed <;>
            simp [Option.filter_some, selected, Entry.swept, isOverdue, isDue, isExpired, state,
              late]
      | failed expiresAt report =>
          by_cases late : expiresAt ≤ now.elapsed <;>
            simp [Option.filter_some, selected, Entry.swept, isOverdue, isDue, isExpired, state,
              late]

variable {dispatcher} {now} {key}

/-- What a sweep puts on its list are the keys of unobserved commands that are due. -/
theorem mem_due_beginSweep_iff :
    key ∈ (dispatcher.beginSweep now).2.2 ↔
      ∃ entry, dispatcher.entries.find? key = some entry ∧ entry.observed = false ∧
        isDue now.elapsed entry = true := by
  simp only [beginSweep, List.mem_map, Prod.exists, exists_and_right, exists_eq_right,
    mem_select_iff, Bool.and_eq_true, Bool.not_eq_true']
  constructor
  · rintro ⟨_, entry, found, due, _⟩
    exact ⟨entry, found, due⟩
  · rintro ⟨entry, found, due⟩
    exact ⟨_, entry, found, due, rfl⟩

theorem mem_dueEntries_iff
    (keyed : ∀ key entry, dispatcher.entries.find? key = some entry → entry.command.key = key)
    {order : SweepOrder} {entry : Entry} :
    entry ∈ dispatcher.dueEntries now order ↔
      dispatcher.entries.find? entry.command.key = some entry ∧ entry.observed = false ∧
        isDue now.elapsed entry = true := by
  simp only [dueEntries, List.mem_filterMap, (order.perm _).mem_iff, mem_due_beginSweep_iff]
  constructor
  · rintro ⟨key, ⟨other, otherFound, due⟩, found⟩
    obtain rfl : other = entry := Option.some.inj (otherFound.symm.trans found)
    exact ⟨keyed key other found ▸ found, due⟩
  · rintro ⟨found, due⟩
    exact ⟨entry.command.key, ⟨entry, found, due⟩, found⟩

theorem map_key_dueEntries
    (keyed : ∀ key entry, dispatcher.entries.find? key = some entry → entry.command.key = key)
    (order : SweepOrder) :
    (dispatcher.dueEntries now order).map (fun entry => entry.command.key) =
      order.arrange (dispatcher.beginSweep now).2.2 := by
  have tracked : ∀ keys : List IdempotencyKey,
      (∀ key ∈ keys, ∃ entry, dispatcher.entries.find? key = some entry) →
      (keys.filterMap dispatcher.entries.find?).map (fun entry => entry.command.key) = keys := by
    intro keys found
    induction keys with
    | nil => rfl
    | cons key keys ih =>
        rcases List.forall_mem_cons.mp found with ⟨⟨entry, first⟩, rest⟩
        rw [List.filterMap_cons_some first, List.map_cons, ih rest, keyed key entry first]
  refine tracked _ fun key member => ?_
  rcases mem_due_beginSweep_iff.mp ((order.perm _).mem_iff.mp member) with ⟨entry, found, _⟩
  exact ⟨entry, found⟩

theorem nodup_dueEntries
    (keyed : ∀ key entry, dispatcher.entries.find? key = some entry → entry.command.key = key)
    (order : SweepOrder) :
    ((dispatcher.dueEntries now order).map fun entry => entry.command.key).Nodup := by
  rw [map_key_dueEntries keyed, (order.perm _).nodup_iff]
  exact dispatcher.nodup_select _

end Beginning

section Resending

variable {dispatcher : Dispatcher} {now : Moment}

theorem reenter?_of_due {start : Moment} {key : IdempotencyKey} {entry : Entry}
    (found : dispatcher.entries.find? key = some entry) (due : isDue start.elapsed entry = true) :
    dispatcher.reenter? start now key =
      some ({ dispatcher with
          entries := dispatcher.entries.insert key (entry.reentered dispatcher.policy start now) },
        (entry.reentered dispatcher.policy start now).command) :=
  (reenter?_eq_some_iff ..).mpr ⟨entry, found, due, rfl, rfl⟩

theorem noteOutcome_of_conclude {entry : Entry}
    (found : dispatcher.entries.find? entry.command.key = some entry)
    (inFlight : entry.isInFlight = true) {result : SendResult} {outcome : Option AckOutcome}
    (answered : (dispatcher.conclude now entry.command result).2 = .ok outcome)
    (report : ReapReport) :
    noteOutcome report outcome =
      { report with
        failed := report.failed ++ (entry.concluded dispatcher.policy now entry.command.key
          result).state.report?.toList } := by
  cases result with
  | none =>
      obtain rfl := Except.ok.inj answered
      have notFailed := EntryState.report?_of_isInFlight inFlight
      simp [noteOutcome, Entry.concluded, notFailed]
  | some problem =>
      cases problem with
      | fatal reason => cases answered
      | transient reason =>
          simp only [conclude, recordFailure, found, inFlight, Except.ok.injEq] at answered
          subst answered
          by_cases left : dispatcher.policy.isExhausted entry.command.attempt = false
          · simp [noteOutcome, Entry.concluded, Entry.failedOnce, left, EntryState.report?]
          · simp [noteOutcome, Entry.concluded, Entry.failedOnce, left, EntryState.report?]

/-- How a sweep ends that has sent some of the due commands again, and what it answers. -/
inductive Ending (policy : RetryPolicy) (start : Moment) (slow : SlowTransport)
    (report : ReapReport) : List Entry → List Entry → Except DispatchError ReapReport → Prop
  /-- The transport has lasted, and the report tells of all commands. -/
  | lasted {sent : List Entry}
      (lasts : ∀ entry ∈ sent, ∀ reason,
        slow.result (entry.offeredAgain policy start slow).command ≠ some (.fatal reason)) :
      Ending policy start slow report sent []
        (.ok
          { report with
            retried := report.retried ++
              sent.map fun entry => (entry.command.key, entry.command.attempt + 1)
            failed := report.failed ++
              sent.filterMap fun entry => (entry.resent policy start slow).state.report? })
  /-- The transport is gone, and the answer tells of no command but the last one. -/
  | gone {before rest : List Entry} {last : Entry} {reason : String}
      (lasts : ∀ entry ∈ before, ∀ reason,
        slow.result (entry.offeredAgain policy start slow).command ≠ some (.fatal reason))
      (fatal : slow.result (last.offeredAgain policy start slow).command =
        some (.fatal reason)) :
      Ending policy start slow report (before ++ [last]) rest
        (.error (.transport (.fatal reason)))

theorem fatal_of_conclude {command : Command} {result : SendResult} {problem : DispatchError}
    (answered : (dispatcher.conclude now command result).2 = .error problem) :
    ∃ reason, result = some (.fatal reason) ∧ problem = .transport (.fatal reason) := by
  cases result with
  | none => cases answered
  | some refusal =>
      cases refusal with
      | transient reason => cases answered
      | fatal reason => exact ⟨reason, rfl, (Except.error.inj answered).symm⟩

theorem not_fatal_of_conclude {command : Command} {result : SendResult}
    {outcome : Option AckOutcome}
    (answered : (dispatcher.conclude now command result).2 = .ok outcome) (reason : String) :
    result ≠ some (.fatal reason) := by
  rintro rfl
  cases answered

theorem Ending.cons {policy : RetryPolicy} {start : Moment} {slow : SlowTransport}
    {report : ReapReport} {entry : Entry} {sent rest : List Entry}
    {answer : Except DispatchError ReapReport}
    (ending : Ending policy start slow
      { report with
        retried := report.retried ++ [(entry.command.key, entry.command.attempt + 1)]
        failed := report.failed ++ (entry.resent policy start slow).state.report?.toList }
      sent rest answer)
    (lasts : ∀ reason,
      slow.result (entry.offeredAgain policy start slow).command ≠ some (.fatal reason)) :
    Ending policy start slow report (entry :: sent) rest answer := by
  cases ending with
  | lasted lastsLater =>
      have ending : Ending policy start slow report (entry :: sent) [] _ :=
        .lasted (List.forall_mem_cons.mpr ⟨lasts, lastsLater⟩)
      rw [List.map_cons, List.filterMap_cons] at ending
      cases told : (entry.resent policy start slow).state.report? with
      | none =>
          rw [told] at ending
          simpa using ending
      | some failure =>
          rw [told] at ending
          simpa using ending
  | gone lastsLater fatal => exact .gone (List.forall_mem_cons.mpr ⟨lasts, lastsLater⟩) fatal

section Slow

variable (dispatcher : Dispatcher) (start : Moment) (slow : SlowTransport) (entry : Entry)

/-- The dispatcher when a due command has been entered again, before the transport answers. -/
def reenteredAt : Dispatcher :=
  { dispatcher with
    entries := dispatcher.entries.insert entry.command.key
      (entry.offeredAgain dispatcher.policy start slow) }

/-- The dispatcher and what it knows of the command when the transport has answered. -/
def concludedAt : Dispatcher × Except DispatchError (Option AckOutcome) :=
  let again := (entry.offeredAgain dispatcher.policy start slow).command
  (dispatcher.reenteredAt start slow entry).conclude (slow.answeredAt entry.command.key) again
    (slow.result again)

theorem find?_concludedAt (key : IdempotencyKey) :
    (dispatcher.concludedAt start slow entry).1.entries.find? key =
      if key = entry.command.key then some (entry.resent dispatcher.policy start slow)
      else dispatcher.entries.find? key := by
  simp only [concludedAt, find?_conclude, reenteredAt, SortedMap.find?_insert]
  by_cases same : key = entry.command.key
  · subst same
    simp [Entry.resent, Entry.offeredAgain, Entry.reentered, Command.again, Entry.isInFlight,
      EntryState.isInFlight]
  · have different : key ≠ (entry.offeredAgain dispatcher.policy start slow).command.key := same
    simp [same, different]

variable {dispatcher} {start} {entry}

theorem resendSlowly_cons (found : dispatcher.entries.find? entry.command.key = some entry)
    (due : isDue start.elapsed entry = true) (offered : List Command) (report : ReapReport)
    (keys : List IdempotencyKey) :
    let again := (entry.offeredAgain dispatcher.policy start slow).command
    let concluded := dispatcher.concludedAt start slow entry
    dispatcher.resendSlowly start slow offered report (entry.command.key :: keys) =
      match concluded.2 with
      | .error problem => ⟨concluded.1, (again :: offered).reverse, .error problem⟩
      | .ok outcome =>
        concluded.1.resendSlowly start slow (again :: offered)
          (noteOutcome (noteRetry report again) outcome) keys := by
  intro again concluded
  have reentered : dispatcher.reenter? start (slow.offeredAt entry.command.key)
      entry.command.key = some (dispatcher.reenteredAt start slow entry, again) :=
    reenter?_of_due found due
  have split : (dispatcher.reenteredAt start slow entry).conclude
      (slow.answeredAt entry.command.key) again (slow.result again) =
      (concluded.1, concluded.2) := rfl
  simp only [resendSlowly, reentered, split]
  cases concluded.2 <;> rfl

theorem resendSlowly_spec {due : List Entry}
    (nodup : (due.map fun entry => entry.command.key).Nodup)
    (found : ∀ entry ∈ due, dispatcher.entries.find? entry.command.key = some entry ∧
      isDue start.elapsed entry = true) (offered : List Command) (report : ReapReport) :
    let outcome := dispatcher.resendSlowly start slow offered report
      (due.map fun entry => entry.command.key)
    ∃ sent rest, due = sent ++ rest ∧
      outcome.offered = offered.reverse ++
        (sent.map fun entry => (entry.offeredAgain dispatcher.policy start slow).command) ∧
      (∀ key, outcome.dispatcher.entries.find? key =
        (dispatcher.entries.find? key).map fun entry =>
          if key ∈ sent.map (fun entry => entry.command.key) then
            entry.resent dispatcher.policy start slow
          else entry) ∧
      Ending dispatcher.policy start slow report sent rest outcome.answer := by
  induction due generalizing dispatcher offered report with
  | nil =>
      refine ⟨[], [], rfl, by simp [resendSlowly], fun key => by simp [resendSlowly], ?_⟩
      have ending : Ending dispatcher.policy start slow report [] [] _ :=
        .lasted fun _ member => absurd member List.not_mem_nil
      simpa [resendSlowly] using ending
  | cons entry rest ih =>
      rcases List.forall_mem_cons.mp found with ⟨⟨entryFound, entryDue⟩, restFound⟩
      rcases List.nodup_cons.mp nodup with ⟨isNew, restNodup⟩
      let again := (entry.offeredAgain dispatcher.policy start slow).command
      let concluded := dispatcher.concludedAt start slow entry
      have after : ∀ key, concluded.1.entries.find? key = _ :=
        dispatcher.find?_concludedAt start slow entry
      have samePolicy : concluded.1.policy = dispatcher.policy :=
        ((dispatcher.reenteredAt start slow entry).upkeep_conclude _ again _).policy_eq
      intro outcome
      have step : outcome = _ := resendSlowly_cons slow entryFound entryDue offered report _
      cases answered : concluded.2 with
      | error problem =>
          rw [answered] at step
          rcases fatal_of_conclude answered with ⟨reason, fatal, rfl⟩
          refine ⟨[entry], rest, rfl, ?_, ?_, ?_⟩
          · rw [step]
            simp
          · intro key
            rw [step, after]
            by_cases same : key = entry.command.key
            · subst same
              simp [entryFound]
            · simp [same]
          · rw [step]
            have ending : Ending dispatcher.policy start slow report ([] ++ [entry]) rest _ :=
              .gone (fun _ member => absurd member List.not_mem_nil) fatal
            exact ending
      | ok heard =>
          rw [answered] at step
          replace step : outcome = concluded.1.resendSlowly start slow (again :: offered)
            (noteOutcome (noteRetry report again) heard)
            (rest.map fun entry => entry.command.key) := step
          have stillFound : ∀ other ∈ rest,
              concluded.1.entries.find? other.command.key = some other ∧
                isDue start.elapsed other = true := by
            intro other member
            have different : other.command.key ≠ entry.command.key :=
              fun same => isNew (List.mem_map.mpr ⟨other, member, same⟩)
            rw [after, if_neg different]
            exact restFound other member
          rcases ih restNodup stillFound (again :: offered)
            (noteOutcome (noteRetry report again) heard) with
            ⟨sent, left, rfl, offers, found?, ending⟩
          rw [samePolicy] at offers found? ending
          refine ⟨entry :: sent, left, rfl, ?_, ?_, ?_⟩
          · rw [step, offers]
            simp [again]
          · intro key
            rw [step, found?, after]
            by_cases same : key = entry.command.key
            · subst same
              have notAgain : entry.command.key ∉ sent.map fun entry => entry.command.key := by
                rw [List.map_append, List.mem_append] at isNew
                exact fun member => isNew (Or.inl member)
              simp [entryFound, notAgain]
            · simp [same]
          · have lasts : ∀ reason, slow.result again ≠ some (.fatal reason) :=
              not_fatal_of_conclude answered
            have noted : noteOutcome (noteRetry report again) heard =
                { report with
                  retried := report.retried ++ [(entry.command.key, entry.command.attempt + 1)]
                  failed := report.failed ++
                    (entry.resent dispatcher.policy start slow).state.report?.toList } :=
              noteOutcome_of_conclude ((SortedMap.find?_insert ..).trans (if_pos rfl)) rfl
                answered _
            rw [step]
            rw [noted] at ending ⊢
            exact ending.cons lasts

end Slow

end Resending

section Sweeping

variable {dispatcher : Dispatcher} {now : Moment}

theorem swept_of_due {entry : Entry} (unobserved : entry.observed = false)
    (due : isDue now.elapsed entry = true) (policy : RetryPolicy) (key : IdempotencyKey) :
    entry.swept policy now key = some entry := by
  cases state : entry.state with
  | backoff retryAt => simp [Entry.swept, isOverdue, isExpired, state, unobserved]
  | _ => simp [isDue, state] at due

/--
A sweep sends due commands again, in any order; what becomes of every command is told for each on
its own, and the answer tells of all of them unless the transport is gone.
-/
theorem reapSlowly_spec
    (keyed : ∀ key entry, dispatcher.entries.find? key = some entry → entry.command.key = key)
    (slow : SlowTransport) (order : SweepOrder) :
    let outcome := dispatcher.reapSlowly now slow order
    ∃ sent rest, dispatcher.dueEntries now order = sent ++ rest ∧
      outcome.offered =
        (sent.map fun entry => (entry.offeredAgain dispatcher.policy now slow).command) ∧
      (∀ key, outcome.dispatcher.entries.find? key =
        (dispatcher.entries.find? key).bind fun entry =>
          if key ∈ sent.map fun entry => entry.command.key then
            some (entry.resent dispatcher.policy now slow)
          else entry.swept dispatcher.policy now key) ∧
      Ending dispatcher.policy now slow (dispatcher.beginSweep now).2.1 sent rest
        outcome.answer := by
  intro outcome
  have swept := dispatcher.find?_beginSweep now
  have stillFound : ∀ entry ∈ dispatcher.dueEntries now order,
      (dispatcher.beginSweep now).1.entries.find? entry.command.key = some entry ∧
        isDue now.elapsed entry = true := by
    intro entry member
    rcases (mem_dueEntries_iff keyed).mp member with ⟨found, unobserved, due⟩
    rw [swept, found, Option.bind_some, swept_of_due unobserved due]
    exact ⟨rfl, due⟩
  have samePolicy := (dispatcher.upkeep_beginSweep now).policy_eq
  rcases resendSlowly_spec slow (nodup_dueEntries keyed order) stillFound []
    (dispatcher.beginSweep now).2.1 with ⟨sent, rest, parts, offers, found?, ending⟩
  rw [map_key_dueEntries keyed, samePolicy] at offers found? ending
  refine ⟨sent, rest, parts, offers, fun key => ?_, ending⟩
  refine (found? key).trans ?_
  rw [swept]
  cases found : dispatcher.entries.find? key with
  | none => rfl
  | some entry =>
      rw [Option.bind_some, Option.bind_some]
      by_cases again : key ∈ sent.map fun entry => entry.command.key
      · rcases List.mem_map.mp again with ⟨other, otherSent, rfl⟩
        have isDue := (mem_dueEntries_iff keyed).mp (parts ▸ List.mem_append_left rest otherSent)
        obtain rfl : other = entry := Option.some.inj (isDue.1.symm.trans found)
        rw [swept_of_due isDue.2.1 isDue.2.2, Option.map_some, if_pos again, if_pos again]
      · simp only [if_neg again, Option.map_id']

theorem recordFailure_eq_failed_iff {key : IdempotencyKey} {handle : CommandHandle}
    {reason : String} {retryable : Bool} {report : FailureReport} :
    (dispatcher.recordFailure now key handle reason retryable).2 = .failed report ↔
      ∃ entry, dispatcher.entries.find? key = some entry ∧ entry.command.handle = handle ∧
        entry.isInFlight = true ∧
        (entry.failedOnce dispatcher.policy now key reason retryable).state.report? =
          some report := by
  constructor
  · intro failed
    rw [recordFailure] at failed
    split at failed
    · cases failed
    · rename_i entry found
      split at failed
      · cases failed
      · rename_i tracked
        rw [not_or, not_not, Bool.not_eq_true, Bool.not_eq_false'] at tracked
        refine ⟨entry, found, tracked.1, tracked.2, ?_⟩
        simp only at failed
        split at failed
        · cases failed
        · rename_i notAgain
          rw [Entry.failedOnce, if_neg notAgain]
          exact congrArg some (AckOutcome.failed.inj failed)
  · rintro ⟨entry, found, rfl, inFlight, told⟩
    simp only [Entry.failedOnce] at told
    simp only [recordFailure, found, inFlight, ne_eq, not_true_eq_false, Bool.not_true,
      Bool.false_eq_true, or_self, if_false]
    split
    · rename_i again
      rw [if_pos again] at told
      cases told
    · rename_i notAgain
      rw [if_neg notAgain] at told
      exact congrArg AckOutcome.failed (Option.some.inj told)

theorem mem_timeOutAll_iff {overdue : List (IdempotencyKey × CommandHandle)}
    (nodup : (overdue.map Prod.fst).Nodup) {report : FailureReport} :
    report ∈ (dispatcher.timeOutAll now overdue).2 ↔
      ∃ key entry, dispatcher.entries.find? key = some entry ∧
        (key, entry.command.handle) ∈ overdue ∧ entry.isInFlight = true ∧
        (entry.failedOnce dispatcher.policy now key timeoutReason true).state.report? =
          some report := by
  induction overdue generalizing dispatcher with
  | nil => simp [timeOutAll]
  | cons head rest ih =>
      rcases head with ⟨key, handle⟩
      rcases List.nodup_cons.mp nodup with ⟨isNew, restNodup⟩
      let next := (dispatcher.recordFailure now key handle timeoutReason true).1
      have samePolicy : next.policy = dispatcher.policy :=
        (dispatcher.upkeep_recordFailure now key handle timeoutReason true).policy_eq
      have step : report ∈ (dispatcher.timeOutAll now ((key, handle) :: rest)).2 ↔
          (dispatcher.recordFailure now key handle timeoutReason true).2 = .failed report ∨
            report ∈ (next.timeOutAll now rest).2 := by
        simp only [timeOutAll]
        cases (dispatcher.recordFailure now key handle timeoutReason true).2 with
        | failed other => simp [next, eq_comm]
        | _ => simp [next]
      have elsewhere : ∀ other named, (other, named) ∈ rest →
          next.entries.find? other = dispatcher.entries.find? other := by
        intro other named member
        have different : other ≠ key :=
          fun same => isNew (List.mem_map.mpr ⟨_, member, same⟩)
        rw [find?_recordFailure]
        simp [different]
      rw [step, recordFailure_eq_failed_iff, ih restNodup, samePolicy]
      constructor
      · rintro (⟨entry, found, rfl, failed⟩ | ⟨other, entry, found, member, failed⟩)
        · exact ⟨key, entry, found, List.mem_cons_self, failed⟩
        · exact ⟨other, entry, elsewhere _ _ member ▸ found, List.mem_cons_of_mem _ member, failed⟩
      · rintro ⟨other, entry, found, member, failed⟩
        rcases List.mem_cons.mp member with same | member
        · rcases Prod.mk.inj same with ⟨rfl, rfl⟩
          exact Or.inl ⟨entry, found, rfl, failed⟩
        · exact Or.inr ⟨other, entry, (elsewhere _ _ member).trans found, member, failed⟩

theorem isInFlight_of_isOverdue {entry : Entry} {time : Nat}
    (overdue : isOverdue time entry = true) : entry.isInFlight = true := by
  rw [Entry.isInFlight]
  cases state : entry.state with
  | awaitingAck deadline => rfl
  | _ => simp [isOverdue, state] at overdue

theorem isInFlight_of_isDue {entry : Entry} {time : Nat} (due : isDue time entry = true) :
    entry.isInFlight = true := by
  rw [Entry.isInFlight]
  cases state : entry.state with
  | backoff retryAt => rfl
  | _ => simp [isDue, state] at due

theorem isDue_eq_false_of_isOverdue {entry : Entry} {time : Nat}
    (overdue : isOverdue time entry = true) : isDue time entry = false := by
  cases state : entry.state with
  | awaitingAck deadline => simp [isDue, state]
  | _ => simp [isOverdue, state] at overdue

/-- What a sweep reports before it sends anything are commands that it has timed out for good. -/
theorem mem_failed_beginSweep_iff {report : FailureReport} :
    report ∈ (dispatcher.beginSweep now).2.1.failed ↔
      ∃ key entry, dispatcher.entries.find? key = some entry ∧ entry.observed = false ∧
        isOverdue now.elapsed entry = true ∧
        (entry.failedOnce dispatcher.policy now key timeoutReason true).state.report? =
          some report := by
  simp only [beginSweep]
  rw [mem_timeOutAll_iff (dispatcher.nodup_select _), (dispatcher.upkeep_retireAll _).policy_eq]
  simp only [find?_retireAll, mem_select_iff, Bool.and_eq_true, Bool.not_eq_true',
    Option.filter_eq_some_iff]
  constructor
  · rintro ⟨key, entry, ⟨found, _⟩, ⟨other, otherFound, selected, _⟩, _, failed⟩
    obtain rfl : other = entry := Option.some.inj (otherFound.symm.trans found)
    exact ⟨key, other, found, selected.1, selected.2, failed⟩
  · rintro ⟨key, entry, found, unobserved, overdue, failed⟩
    refine ⟨key, entry, ⟨found, ?_⟩, ⟨entry, found, ⟨unobserved, overdue⟩, rfl⟩,
      isInFlight_of_isOverdue overdue, failed⟩
    rw [decide_eq_true_eq]
    rintro ⟨other, otherFound, selected, _⟩
    obtain rfl : other = entry := Option.some.inj (otherFound.symm.trans found)
    exact Bool.false_ne_true (unobserved.symm.trans selected.1)

end Sweeping

end Dispatcher

end Reconciler
