import Reconciler.Proofs.Dispatch.Attempts
import Reconciler.Proofs.Dispatch.Sweeps

/-!
# Failures for good, and who hears of them

A call that lets commands fail for good has its answer to tell of them. The answer to an
acknowledgement always does. That to a dispatch does not if the policy allows only one attempt and
the transport is busy: it says then that the command was sent. That to a sweep does not if the
transport is gone: of all that has failed in the sweep until then, it tells of one command.
-/

namespace Reconciler

namespace Entry

variable (policy : RetryPolicy) (now : Moment) (entry : Entry)

/-- A command fails for good at the answer of a transport that lasts if it has no attempt left. -/
theorem isSome_report?_resent {slow : Dispatcher.SlowTransport}
    (lasts : ∀ reason,
      slow.result (entry.offeredAgain policy now slow).command ≠ some (.fatal reason)) :
    (entry.resent policy now slow).state.report?.isSome = true ↔
      policy.isExhausted (entry.offeredAgain policy now slow).command.attempt = true ∧
        ∃ reason, slow.result (entry.offeredAgain policy now slow).command =
          some (.transient reason) := by
  simp only [resent]
  cases answered : slow.result (entry.offeredAgain policy now slow).command with
  | none => simp [concluded, offeredAgain, reentered, EntryState.report?]
  | some problem =>
      cases problem with
      | fatal reason => exact absurd answered (lasts reason)
      | transient reason => simp [concluded, report?_failedOnce]

end Entry

namespace Dispatcher

/-- The answer says that the transport was gone when the command with a handle was offered. -/
def Outcome.EndsAt {α : Type} (outcome : Outcome α) (handle : CommandHandle) : Prop :=
  (∃ reason, outcome.answer = .error (.transport (.fatal reason))) ∧
    (outcome.offered.getLast?.map fun command => command.handle) = some handle

/-- The command with a handle has failed for good between two states, with a report. -/
def TurnsFailed (before after : Dispatcher) (handle : CommandHandle) (report : FailureReport) :
    Prop :=
  (∃ entry ∈ after.entries.values, entry.command.handle = handle ∧
    entry.state.report? = some report) ∧
  ∀ entry ∈ before.entries.values, entry.command.handle = handle → entry.state.report? = none

/-- The command with a handle fails in a sweep that sends some commands again: at a timeout, or when
it is sent. -/
def FailsInSweep (dispatcher : Dispatcher) (now : Moment) (slow : SlowTransport)
    (sent : List Entry) (handle : CommandHandle) (report : FailureReport) : Prop :=
  (∃ key entry, dispatcher.entries.find? key = some entry ∧ entry.command.handle = handle ∧
    entry.observed = false ∧ isOverdue now.elapsed entry = true ∧
    (entry.failedOnce dispatcher.policy now key timeoutReason true).state.report? = some report) ∨
  ∃ entry ∈ sent, entry.command.handle = handle ∧
    (entry.resent dispatcher.policy now slow).state.report? = some report

/-- Whether a sweep ends at a transport that is gone after other commands have failed for good. -/
def LosesFailures (dispatcher : Dispatcher) (now : Moment) (slow : SlowTransport)
    (order : SweepOrder) : Prop :=
  let outcome := dispatcher.reapSlowly now slow order
  outcome.answer.isOk = false ∧
    ((∃ key entry, dispatcher.entries.find? key = some entry ∧ entry.observed = false ∧
        isOverdue now.elapsed entry = true ∧
        dispatcher.policy.isExhausted entry.command.attempt = true) ∨
      ∃ command ∈ outcome.offered.dropLast,
        dispatcher.policy.isExhausted command.attempt = true ∧
          ∃ reason, slow.result command = some (.transient reason))

instance (before after : Dispatcher) (handle : CommandHandle) (report : FailureReport) :
    Decidable (before.TurnsFailed after handle report) :=
  inferInstanceAs (Decidable (_ ∧ _))

section Calls

variable {dispatcher after : Dispatcher} {now later : Moment} {command : Command}
  {handle : CommandHandle} {report : FailureReport}

/-- The entry of a command that has failed is not the one that was there before. -/
theorem TurnsFailed.exists_entry (turned : dispatcher.TurnsFailed after handle report) :
    ∃ key entry, after.entries.find? key = some entry ∧ entry.command.handle = handle ∧
      entry.state.report? = some report ∧ dispatcher.entries.find? key ≠ some entry := by
  rcases turned with ⟨⟨entry, member, named, failed⟩, notBefore⟩
  rcases SortedMap.mem_values_iff.mp member with ⟨key, found⟩
  refine ⟨key, entry, found, named, failed, fun kept => ?_⟩
  rw [notBefore entry (SortedMap.mem_values_iff.mpr ⟨key, kept⟩) named] at failed
  cases failed

theorem onAck_of_turnsFailed {ack : CommandAck}
    (turned : dispatcher.TurnsFailed (dispatcher.onAck now ack).1 handle report) :
    (dispatcher.onAck now ack).2 = .ok (.failed report) := by
  rcases turned.exists_entry with ⟨key, entry, found, _, failed, notKept⟩
  rw [onAck] at found ⊢
  split at found
  · exact absurd found notKept
  · rename_i ackKey _
    simp only at found ⊢
    cases result : ack.result with
    | success =>
        rw [result] at found
        simp only [find?_recordSuccess, Option.bind_eq_some_iff] at found
        rcases found with ⟨former, formerFound, left⟩
        split at left
        · split at left
          · cases left
          · obtain rfl := Option.some.inj left
            cases failed
        · exact absurd (Option.some.inj left ▸ formerFound) notKept
    | failure retryable reason =>
        rw [result] at found
        simp only [find?_recordFailure, Option.map_eq_some_iff] at found
        rcases found with ⟨former, formerFound, left⟩
        split at left
        · rename_i tracked
          rcases tracked with ⟨same, inFlight⟩
          rcases Prod.mk.inj same with ⟨rfl, acknowledged⟩
          apply congrArg Except.ok
          refine recordFailure_eq_failed_iff.mpr ⟨former, formerFound, acknowledged, inFlight, ?_⟩
          rw [left, failed]
        · exact absurd (left ▸ formerFound) notKept

theorem turnsFailed_conclude_enter_iff
    (fresh : ∀ key entry, dispatcher.entries.find? key = some entry →
      entry.command.handle ≠ command.handle) {result : SendResult} :
    dispatcher.TurnsFailed ((dispatcher.enter now command).conclude later command result).1 handle
        report ↔
      handle = command.handle ∧
        ((Entry.entered dispatcher.policy now command).concluded dispatcher.policy later
          command.key result).state.report? = some report := by
  let entered := Entry.entered dispatcher.policy now command
  let after := ((dispatcher.enter now command).conclude later command result).1
  have found? : ∀ key, after.entries.find? key =
      if key = command.key then some (entered.concluded dispatcher.policy later command.key result)
      else dispatcher.entries.find? key := by
    intro key
    simp only [after, find?_conclude, enter, SortedMap.find?_insert]
    by_cases same : key = command.key
    · simp [same, entered, Entry.entered, Entry.isInFlight, EntryState.isInFlight]
    · simp [same]
  constructor
  · intro turned
    rcases turned.exists_entry with ⟨key, entry, found, named, failed, notKept⟩
    rw [found?] at found
    split at found
    · obtain rfl := Option.some.inj found
      rw [Entry.concluded_command] at named
      exact ⟨named.symm, failed⟩
    · exact absurd found notKept
  · rintro ⟨rfl, failed⟩
    refine ⟨⟨_, SortedMap.mem_values_iff.mpr ⟨command.key, (found? _).trans (if_pos rfl)⟩, ?_,
      failed⟩, ?_⟩
    · rw [Entry.concluded_command]
      rfl
    · intro former member named
      rcases SortedMap.mem_values_iff.mp member with ⟨key, found⟩
      exact absurd named (fresh key former found)

/--
A dispatch tells that its command has failed for good only by saying that the transport is gone. So
it does not if the policy allows one attempt and the transport is busy.
-/
theorem dispatch_tells_iff (fresh : ∀ key entry, dispatcher.entries.find? key = some entry →
      entry.command.handle ≠ dispatcher.nextHandle) (lattice : LatticeId) (app : AppName)
    (action : RequiredAction) (result : SendResult) :
    let outcome := dispatcher.dispatchSlowly now later lattice app action result
    (∀ handle report, dispatcher.TurnsFailed outcome.dispatcher handle report →
        outcome.EndsAt handle) ↔
      ¬(outcome.offered ≠ [] ∧ dispatcher.policy.isExhausted 1 = true ∧
        ∃ reason, result = some (.transient reason)) := by
  have nothing : ∀ {handle report}, ¬dispatcher.TurnsFailed dispatcher handle report := by
    intro handle report turned
    rcases turned.exists_entry with ⟨key, entry, found, _, _, notKept⟩
    exact notKept found
  rcases dispatcher.propose_cases now lattice app action with
    ⟨command, entering, proposed⟩ | ⟨obstacle, proposed | proposed⟩
  · rw [dispatchSlowly, proposed]
    simp only [entering.handle ▸ turnsFailed_conclude_enter_iff (entering.handle ▸ fresh)]
    cases result with
    | none => simp [Entry.concluded, Entry.entered, EntryState.report?]
    | some problem =>
        cases problem with
        | fatal reason =>
            simp only [conclude, Outcome.EndsAt, Except.map]
            simp +contextual [entering.handle]
        | transient reason =>
            simp [conclude, Outcome.EndsAt, Except.map, Entry.concluded, Entry.report?_failedOnce,
              Entry.entered, entering.attempt]
  · rw [dispatchSlowly, proposed]
    simp [nothing]
  · rw [dispatchSlowly, proposed]
    simp [nothing]

/-- A command that was under way has not failed before, and no other command has its handle. -/
theorem turnsFailed_of_isInFlight {offered : List Command} (tracks : dispatcher.Tracks offered)
    {key : IdempotencyKey} {former entry : Entry}
    (formerFound : dispatcher.entries.find? key = some former)
    (inFlight : former.isInFlight = true) (found : after.entries.find? key = some entry)
    (named : entry.command.handle = handle) (failed : entry.state.report? = some report)
    (formerNamed : former.command.handle = handle) :
    dispatcher.TurnsFailed after handle report := by
  refine ⟨⟨entry, SortedMap.mem_values_iff.mpr ⟨key, found⟩, named, failed⟩, ?_⟩
  intro other member otherNamed
  rcases SortedMap.mem_values_iff.mp member with ⟨otherKey, otherFound⟩
  obtain rfl := tracks.eq_of_handle_eq formerFound otherFound (formerNamed.trans otherNamed.symm)
  obtain rfl : other = former := Option.some.inj (otherFound.symm.trans formerFound)
  exact EntryState.report?_of_isInFlight inFlight

/-- What a sweep makes of commands, if it sends some of the due ones again. -/
theorem turnsFailed_sweep_iff {offered : List Command} (tracks : dispatcher.Tracks offered)
    {slow : SlowTransport} {order : SweepOrder} {sent : List Entry}
    (due : ∀ entry ∈ sent, entry ∈ dispatcher.dueEntries now order)
    (found? : ∀ key, after.entries.find? key =
      (dispatcher.entries.find? key).bind fun entry =>
        if key ∈ sent.map fun entry => entry.command.key then
          some (entry.resent dispatcher.policy now slow)
        else entry.swept dispatcher.policy now key) :
    dispatcher.TurnsFailed after handle report ↔
      dispatcher.FailsInSweep now slow sent handle report := by
  constructor
  · intro turned
    rcases turned.exists_entry with ⟨key, entry, found, named, failed, notKept⟩
    rw [found?, Option.bind_eq_some_iff] at found
    rcases found with ⟨former, formerFound, left⟩
    split at left
    · rename_i again
      rcases List.mem_map.mp again with ⟨other, member, rfl⟩
      have otherFound := ((mem_dueEntries_iff tracks.keyed).mp (due other member)).1
      obtain rfl : other = former := Option.some.inj (otherFound.symm.trans formerFound)
      obtain rfl := Option.some.inj left
      rw [Entry.resent, Entry.concluded_command] at named
      exact Or.inr ⟨other, member, named, failed⟩
    · rw [Entry.swept] at left
      split at left
      · rename_i overdue
        split at left
        · cases left
        · rename_i unobserved
          obtain rfl := Option.some.inj left
          exact Or.inl ⟨key, former, formerFound, named, Bool.eq_false_iff.mpr unobserved,
            overdue, failed⟩
      · split at left
        · cases left
        · exact absurd (Option.some.inj left ▸ formerFound) notKept
  · rintro (⟨key, entry, found, named, unobserved, overdue, failed⟩ |
      ⟨entry, member, named, failed⟩)
    · have notSent : key ∉ sent.map fun entry => entry.command.key := by
        intro again
        rcases List.mem_map.mp again with ⟨other, member, rfl⟩
        rcases (mem_dueEntries_iff tracks.keyed).mp (due other member) with ⟨otherFound, _, isDue⟩
        obtain rfl : other = entry := Option.some.inj (otherFound.symm.trans found)
        rw [isDue_eq_false_of_isOverdue overdue] at isDue
        cases isDue
      refine turnsFailed_of_isInFlight tracks found (isInFlight_of_isOverdue overdue) ?_ ?_ failed
        named
      · rw [found?, found, Option.bind_some, if_neg notSent, Entry.swept, if_pos overdue,
          unobserved]
        rfl
      · exact named
    · rcases (mem_dueEntries_iff tracks.keyed).mp (due entry member) with ⟨found, _, isDue⟩
      refine turnsFailed_of_isInFlight tracks found (isInFlight_of_isDue isDue) ?_ ?_ failed named
      · rw [found?, found, Option.bind_some, if_pos (List.mem_map.mpr ⟨entry, member, rfl⟩)]
      · rw [Entry.resent, Entry.concluded_command]
        exact named

theorem handle_ne_of_mem_before {offered : List Command} (tracks : dispatcher.Tracks offered)
    {order : SweepOrder} {before rest : List Entry} {last : Entry}
    (parts : dispatcher.dueEntries now order = (before ++ [last]) ++ rest) {entry : Entry}
    (member : entry ∈ before) : entry.command.handle ≠ last.command.handle := by
  have found : ∀ other ∈ before ++ [last],
      dispatcher.entries.find? other.command.key = some other := by
    intro other otherMember
    have due : other ∈ dispatcher.dueEntries now order :=
      parts ▸ List.mem_append_left rest otherMember
    exact ((mem_dueEntries_iff tracks.keyed).mp due).1
  intro sameHandle
  have sameKey := tracks.eq_of_handle_eq (found entry (List.mem_append_left _ member))
    (found last (by simp)) sameHandle
  have nodup : ((dispatcher.dueEntries now order).map fun entry => entry.command.key).Nodup :=
    nodup_dueEntries tracks.keyed order
  rw [parts, List.map_append, List.map_append, List.nodup_append, List.nodup_append] at nodup
  have apart := nodup.1.2.2 entry.command.key (List.mem_map.mpr ⟨entry, member, rfl⟩)
    last.command.key (by simp)
  exact apart sameKey

/-- What a sweep loses at a transport that is gone is what has failed in it but the last command. -/
theorem losesFailures_iff_of_gone {offered : List Command} (tracks : dispatcher.Tracks offered)
    {slow : SlowTransport} {order : SweepOrder} {before rest : List Entry} {last : Entry}
    (parts : dispatcher.dueEntries now order = (before ++ [last]) ++ rest)
    (lasts : ∀ entry ∈ before, ∀ reason,
      slow.result (entry.offeredAgain dispatcher.policy now slow).command ≠ some (.fatal reason))
    (offers : (dispatcher.reapSlowly now slow order).offered =
      (before ++ [last]).map fun entry => (entry.offeredAgain dispatcher.policy now slow).command)
    (gone : (dispatcher.reapSlowly now slow order).answer.isOk = false) :
    dispatcher.LosesFailures now slow order ↔
      ∃ handle report, dispatcher.FailsInSweep now slow (before ++ [last]) handle report ∧
        handle ≠ last.command.handle := by
  have offeredBefore : (dispatcher.reapSlowly now slow order).offered.dropLast =
      before.map fun entry => (entry.offeredAgain dispatcher.policy now slow).command := by
    simp [offers]
  constructor
  · rintro ⟨_, ⟨key, entry, found, unobserved, overdue, exhausted⟩ |
      ⟨command, member, exhausted, refused⟩⟩
    · have told := entry.report?_failedOnce dispatcher.policy now key timeoutReason true
      rw [if_neg (by simp [exhausted])] at told
      refine ⟨_, _, Or.inl ⟨key, entry, found, rfl, unobserved, overdue, told⟩, ?_⟩
      intro sameHandle
      have lastDue : last ∈ dispatcher.dueEntries now order := by
        simp [parts]
      rcases (mem_dueEntries_iff tracks.keyed).mp lastDue with ⟨lastFound, _, isDue⟩
      obtain rfl := tracks.eq_of_handle_eq found lastFound sameHandle
      obtain rfl : entry = last := Option.some.inj (found.symm.trans lastFound)
      rw [isDue_eq_false_of_isOverdue overdue] at isDue
      cases isDue
    · rw [offeredBefore] at member
      rcases List.mem_map.mp member with ⟨entry, entryMember, rfl⟩
      have lost := (entry.isSome_report?_resent dispatcher.policy now
        (lasts entry entryMember)).mpr ⟨exhausted, refused⟩
      rcases Option.isSome_iff_exists.mp lost with ⟨report, told⟩
      refine ⟨_, report, Or.inr ⟨entry, ?_, rfl, told⟩, ?_⟩
      · exact List.mem_append_left _ entryMember
      · exact handle_ne_of_mem_before tracks parts entryMember
  · rintro ⟨handle, report, failed, other⟩
    refine ⟨gone, ?_⟩
    rcases failed with ⟨key, entry, found, _, unobserved, overdue, told⟩ |
      ⟨entry, member, rfl, told⟩
    · left
      refine ⟨key, entry, found, unobserved, overdue, ?_⟩
      rw [Entry.report?_failedOnce] at told
      by_contra left
      simp [left] at told
    · right
      have entryMember : entry ∈ before := by
        rcases List.mem_append.mp member with isBefore | isLast
        · exact isBefore
        · exact absurd (List.mem_singleton.mp isLast ▸ rfl) other
      refine ⟨_, offeredBefore ▸ List.mem_map.mpr ⟨entry, entryMember, rfl⟩, ?_⟩
      exact (entry.isSome_report?_resent dispatcher.policy now
        (lasts entry entryMember)).mp (Option.isSome_iff_exists.mpr ⟨report, told⟩)

/-- A sweep that comes to its end tells of everything that has failed for good in it. -/
theorem sweep_tells_iff {offered : List Command} (tracks : dispatcher.Tracks offered)
    (slow : SlowTransport) (order : SweepOrder) :
    let outcome := dispatcher.reapSlowly now slow order
    (∀ handle report, dispatcher.TurnsFailed outcome.dispatcher handle report →
        (∃ told, outcome.answer = .ok told ∧ report ∈ told.failed) ∨ outcome.EndsAt handle) ↔
      ¬dispatcher.LosesFailures now slow order := by
  intro outcome
  rcases reapSlowly_spec tracks.keyed slow order with
    ⟨sent, rest, parts, offers, found?, ending⟩
  have due : ∀ entry ∈ sent, entry ∈ dispatcher.dueEntries now order :=
    fun entry member => parts ▸ List.mem_append_left rest member
  have turned : ∀ handle report, dispatcher.TurnsFailed outcome.dispatcher handle report ↔
      dispatcher.FailsInSweep now slow sent handle report :=
    fun _ _ => turnsFailed_sweep_iff tracks due found?
  simp only [turned]
  generalize answered : (dispatcher.reapSlowly now slow order).answer = answer at ending
  cases ending with
  | lasted lasts =>
      apply iff_of_true
      · intro handle report failed
        refine Or.inl ⟨_, rfl, List.mem_append.mpr ?_⟩
        rcases failed with ⟨key, entry, found, _, overdue⟩ | ⟨entry, member, _, told⟩
        · exact Or.inl (mem_failed_beginSweep_iff.mpr ⟨key, entry, found, overdue⟩)
        · exact Or.inr (List.mem_filterMap.mpr ⟨entry, member, told⟩)
      · rintro ⟨notOk, _⟩
        rw [answered] at notOk
        cases notOk
  | @gone before rest last reason lasts fatal =>
      have endsAt : ∀ {handle}, outcome.EndsAt handle ↔ handle = last.command.handle := by
        intro handle
        have lastOffered : (outcome.offered.getLast?.map fun command => command.handle) =
            some last.command.handle := by
          simp [outcome, offers, Entry.offeredAgain, Entry.reentered, Command.again]
        rw [Outcome.EndsAt, lastOffered, Option.some.injEq, eq_comm]
        exact and_iff_right ⟨reason, answered⟩
      have gone := congrArg Except.isOk answered
      rw [losesFailures_iff_of_gone tracks parts lasts offers gone]
      constructor
      · rintro tells ⟨handle, report, failed, other⟩
        rcases tells handle report failed with ⟨told, toldAnswered, _⟩ | ends
        · cases toldAnswered
        · exact other (endsAt.mp ends)
      · intro keeps handle report failed
        refine Or.inr (endsAt.mpr ?_)
        by_contra other
        exact keeps ⟨handle, report, failed, other⟩

end Calls

/--
However a dispatcher is used, and whatever and whenever the transport answers: the answer to an
acknowledgement tells of the command that it lets fail for good; a dispatch tells of its command
unless the policy allows one attempt and the transport is busy; and a sweep, in whatever order it
comes to the commands, tells of all that fails for good in it unless it ends at a transport that is
gone and more than the last command has failed.
-/
theorem failures_told_iff (policy : RetryPolicy) (source : Nat) (moves : List Move) (now : Moment) :
    let dispatcher := ((new policy source).performAll moves).1
    (∀ ack handle report, dispatcher.TurnsFailed (dispatcher.onAck now ack).1 handle report →
      (dispatcher.onAck now ack).2 = .ok (.failed report)) ∧
    (∀ later lattice app action result,
      let outcome := dispatcher.dispatchSlowly now later lattice app action result
      (∀ handle report, dispatcher.TurnsFailed outcome.dispatcher handle report →
          outcome.EndsAt handle) ↔
        ¬(outcome.offered ≠ [] ∧ policy.isExhausted 1 = true ∧
          ∃ reason, result = some (.transient reason))) ∧
    ∀ slow order,
      let outcome := dispatcher.reapSlowly now slow order
      (∀ handle report, dispatcher.TurnsFailed outcome.dispatcher handle report →
          (∃ told, outcome.answer = .ok told ∧ report ∈ told.failed) ∨ outcome.EndsAt handle) ↔
        ¬dispatcher.LosesFailures now slow order := by
  intro dispatcher
  have tracks := tracks_performAll policy source moves
  refine ⟨fun ack handle report => onAck_of_turnsFailed, ?_, sweep_tells_iff tracks⟩
  intro later lattice app action result
  have fresh : ∀ key entry, dispatcher.entries.find? key = some entry →
      entry.command.handle ≠ dispatcher.nextHandle :=
    fun key entry found => tracks.ne_nextHandle entry.command (tracks.mem_offered found)
  have tells := @dispatch_tells_iff dispatcher now later fresh lattice app action result
  have samePolicy : dispatcher.policy = policy := performAll_policy (new policy source) moves
  rw [samePolicy] at tells
  exact tells

/--
A stop that waits in vain for its second acknowledgement fails in a sweep that ends at another
command, and nobody hears of it; nor does anybody of a first attempt that is the last one.
-/
theorem failures_untold :
    let stop (component : String) : RequiredAction :=
      .stopInstances ⟨component⟩ ⟨"host-a"⟩ [⟨"i-1"⟩]
    let twice : RetryPolicy := { RetryPolicy.standard with maxAttempts := 2 }
    let moves : List Move :=
      [.dispatch ⟨0, ⟨0, 0⟩⟩ ⟨"prod"⟩ ⟨"shop"⟩ (stop "shop-api") none,
        .sweep ⟨10000, ⟨10, 0⟩⟩ fun _ => none,
        .sweep ⟨10500, ⟨10, 0⟩⟩ fun _ => none,
        .dispatch ⟨20400, ⟨20, 0⟩⟩ ⟨"prod"⟩ ⟨"shop"⟩ (stop "shop-web") (some (.transient "busy"))]
    let dispatcher := ((new twice 0).performAll moves).1
    let swept := dispatcher.reapTimeouts ⟨20900, ⟨20, 0⟩⟩ fun _ => some (.fatal "gone")
    let once : RetryPolicy := { RetryPolicy.standard with maxAttempts := 1 }
    let dispatched := (new once 0).dispatch ⟨0, ⟨0, 0⟩⟩ ⟨"prod"⟩ ⟨"shop"⟩ (stop "shop-api")
      (some (.transient "busy"))
    (∃ handle report, dispatcher.TurnsFailed swept.dispatcher handle report ∧
      (∀ told, swept.answer = .ok told → report ∉ told.failed) ∧ ¬swept.EndsAt handle) ∧
    ∃ handle report, (new once 0).TurnsFailed dispatched.dispatcher handle report ∧
      ¬dispatched.EndsAt handle := by
  intro stop twice moves dispatcher swept once dispatched
  let key := (stop "shop-api").idempotencyKey ⟨"prod"⟩
  refine ⟨⟨.ofNumbers 0 0, ⟨key, ⟨"shop-api"⟩, 2, timeoutReason, ⟨20, 0⟩⟩, ?_, ?_, ?_⟩,
    ⟨.ofNumbers 0 0, ⟨key, ⟨"shop-api"⟩, 1, "busy", ⟨0, 0⟩⟩, ?_, ?_⟩⟩
  · decide +kernel
  · have gone : swept.answer = .error (.transport (.fatal "gone")) := by decide +kernel
    intro told answered
    cases gone.symm.trans answered
  · rintro ⟨_, last⟩
    revert last
    decide +kernel
  · decide +kernel
  · have sent : dispatched.answer.isOk = true := by decide +kernel
    rintro ⟨⟨reason, answered⟩, _⟩
    rw [answered] at sent
    cases sent

end Dispatcher

end Reconciler
