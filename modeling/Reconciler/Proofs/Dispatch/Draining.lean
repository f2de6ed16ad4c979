import Reconciler.Proofs.Dispatch.Handles
import Reconciler.Proofs.Dispatch.Waits

/-!
# Draining

A dispatcher that is left alone, but for its sweeps, forgets all its commands. Every sweep at which
all waits are over takes each command a step further: an attempt fails for want of an
acknowledgement, or gives way to the next attempt, or the command is forgotten. A command has at
most two such steps for each attempt.
-/

namespace Reconciler

namespace Entry

/-- The number of sweeps after which a command is forgotten, if by each sweep all waits are over. -/
def sweepsLeft (policy : RetryPolicy) (entry : Entry) : Nat :=
  let attemptsLeft := policy.attemptLimit - entry.command.attempt.toNat
  match entry.state with
  | .awaitingAck _ => if entry.observed then 1 else 2 * attemptsLeft + 2
  | .backoff _ => if entry.observed then 1 else 2 * attemptsLeft + 1
  | .settled _ => 1
  | .failed .. => 1

variable {policy : RetryPolicy} {entry : Entry}

theorem sweepsLeft_pos (policy : RetryPolicy) (entry : Entry) : 0 < entry.sweepsLeft policy := by
  simp only [sweepsLeft]
  split <;> (try split) <;> omega

theorem sweepsLeft_failedOnce_lt {deadline : Nat} (waits : entry.state = .awaitingAck deadline)
    (unobserved : entry.observed = false) (now : Moment) (key : IdempotencyKey) (reason : String)
    (retryable : Bool) :
    (entry.failedOnce policy now key reason retryable).sweepsLeft policy <
      entry.sweepsLeft policy := by
  simp only [failedOnce]
  split
  · simp [sweepsLeft, waits, unobserved]
  · simp [sweepsLeft, waits, unobserved]

theorem sweepsLeft_concluded_le {deadline : Nat} (waits : entry.state = .awaitingAck deadline)
    (unobserved : entry.observed = false) (now : Moment) (key : IdempotencyKey)
    (result : SendResult) :
    (entry.concluded policy now key result).sweepsLeft policy ≤ entry.sweepsLeft policy := by
  cases result with
  | none => exact Nat.le_refl _
  | some problem =>
      apply Nat.le_of_lt
      cases problem with
      | transient reason => exact sweepsLeft_failedOnce_lt waits unobserved ..
      | fatal reason => exact sweepsLeft_failedOnce_lt waits unobserved ..

/-- A further attempt takes a command a step further, whatever the transport answers. -/
theorem sweepsLeft_resent_lt {retryAt : Nat} (waits : entry.state = .backoff retryAt)
    (unobserved : entry.observed = false)
    (left : policy.isExhausted entry.command.attempt = false) (now : Moment)
    (slow : Dispatcher.SlowTransport) :
    (entry.resent policy now slow).sweepsLeft policy < entry.sweepsLeft policy := by
  have again : (entry.offeredAgain policy now slow).sweepsLeft policy <
      entry.sweepsLeft policy := by
    have allowed := RetryPolicy.lt_maxAttempts left
    have bounded := policy.maxAttempts.toNat_lt
    have next : (entry.command.attempt + 1).toNat = entry.command.attempt.toNat + 1 := by
      rw [UInt32.toNat_add]
      exact Nat.mod_eq_of_lt (Nat.lt_of_le_of_lt allowed bounded)
    simp only [sweepsLeft, offeredAgain, reentered, Command.again, waits, unobserved, next,
      RetryPolicy.attemptLimit]
    simp only [Bool.false_eq_true, if_false]
    omega
  have waiting : (entry.offeredAgain policy now slow).state = .awaitingAck _ := rfl
  exact Nat.lt_of_le_of_lt (sweepsLeft_concluded_le waiting unobserved ..) again

/-- What a sweep leaves of a command whose wait is over, unless it sends it again. -/
theorem sweepsLeft_swept_lt {now : Moment} (waited : entry.state.time ≤ now.elapsed)
    (notDue : entry.observed = false → Dispatcher.isDue now.elapsed entry = false)
    {key : IdempotencyKey} {left : Entry} (swept : entry.swept policy now key = some left) :
    left.sweepsLeft policy < entry.sweepsLeft policy := by
  cases state : entry.state with
  | awaitingAck deadline =>
      have overdue : Dispatcher.isOverdue now.elapsed entry = true := by
        rw [state] at waited
        simpa [Dispatcher.isOverdue, state, EntryState.time] using waited
      rw [Entry.swept, if_pos overdue] at swept
      split at swept
      · cases swept
      · rename_i unobserved
        obtain rfl := Option.some.inj swept
        exact sweepsLeft_failedOnce_lt state (Bool.eq_false_iff.mpr unobserved) ..
  | backoff retryAt =>
      have due : Dispatcher.isDue now.elapsed entry = true := by
        rw [state] at waited
        simpa [Dispatcher.isDue, state, EntryState.time] using waited
      have observed : entry.observed = true := by
        by_contra unobserved
        rw [notDue (Bool.eq_false_iff.mpr unobserved)] at due
        cases due
      simp [Entry.swept, Dispatcher.isOverdue, state, due, observed] at swept
  | settled expiresAt =>
      have expired : Dispatcher.isExpired now.elapsed entry = true := by
        rw [state] at waited
        simpa [Dispatcher.isExpired, state, EntryState.time] using waited
      simp [Entry.swept, Dispatcher.isOverdue, state, expired] at swept
  | failed expiresAt report =>
      have expired : Dispatcher.isExpired now.elapsed entry = true := by
        rw [state] at waited
        simpa [Dispatcher.isExpired, state, EntryState.time] using waited
      simp [Entry.swept, Dispatcher.isOverdue, state, expired] at swept

end Entry

namespace Dispatcher

theorem Tracks.attempt_bounds {dispatcher : Dispatcher} {offered : List Command}
    (tracks : dispatcher.Tracks offered) {key : IdempotencyKey} {entry : Entry}
    (found : dispatcher.entries.find? key = some entry) :
    1 ≤ entry.command.attempt.toNat ∧
      entry.command.attempt.toNat ≤ dispatcher.policy.attemptLimit := by
  have last := tracks.latest found
  have series := tracks.series entry.command.handle
  rw [series.attempt_last last]
  exact ⟨List.length_pos_of_mem (List.mem_of_getLast? last), series.length_le⟩

theorem Tracks.sweepsLeft_le {dispatcher : Dispatcher} {offered : List Command}
    (tracks : dispatcher.Tracks offered) {key : IdempotencyKey} {entry : Entry}
    (found : dispatcher.entries.find? key = some entry) :
    entry.sweepsLeft dispatcher.policy ≤ 2 * dispatcher.policy.attemptLimit := by
  have bounds := tracks.attempt_bounds found
  simp only [Entry.sweepsLeft]
  split <;> (try split) <;> omega

/-- A sweep at which all waits are over takes every command that it leaves a step further. -/
theorem sweepsLeft_lt_of_sweep {dispatcher : Dispatcher} {offered : List Command}
    (tracks : dispatcher.Tracks offered) {now : Moment}
    (waited : dispatcher.WaitsUntil now.elapsed) {slow : SlowTransport} {order : SweepOrder}
    (lasts : (dispatcher.reapSlowly now slow order).answer.isOk = true) {key : IdempotencyKey}
    {entry : Entry}
    (found : (dispatcher.reapSlowly now slow order).dispatcher.entries.find? key = some entry) :
    ∃ former, dispatcher.entries.find? key = some former ∧
      entry.sweepsLeft dispatcher.policy < former.sweepsLeft dispatcher.policy := by
  rcases reapSlowly_spec tracks.keyed slow order with ⟨sent, rest, parts, _, found?, ending⟩
  have allSent : dispatcher.dueEntries now order = sent := by
    cases answered : (dispatcher.reapSlowly now slow order).answer with
    | error problem => simp [answered, Except.isOk, Except.toBool] at lasts
    | ok report =>
        rw [answered] at ending
        cases ending
        rw [parts, List.append_nil]
  rw [found?, Option.bind_eq_some_iff] at found
  rcases found with ⟨former, formerFound, left⟩
  refine ⟨former, formerFound, ?_⟩
  split at left
  · rename_i again
    rcases List.mem_map.mp again with ⟨other, otherSent, rfl⟩
    rcases (mem_dueEntries_iff tracks.keyed).mp (allSent ▸ otherSent) with
      ⟨otherFound, unobserved, due⟩
    obtain rfl : other = former := Option.some.inj (otherFound.symm.trans formerFound)
    obtain rfl := Option.some.inj left
    cases state : other.state with
    | backoff retryAt =>
        exact Entry.sweepsLeft_resent_lt state unobserved (tracks.waiting formerFound state) ..
    | _ => simp [isDue, state] at due
  · rename_i notSent
    refine Entry.sweepsLeft_swept_lt (waited key former formerFound) (fun unobserved => ?_) left
    by_contra due
    have sameKey := tracks.key formerFound
    apply notSent
    refine List.mem_map.mpr ⟨former, ?_, sameKey⟩
    rw [← allSent, mem_dueEntries_iff tracks.keyed, sameKey]
    exact ⟨formerFound, unobserved, Bool.not_eq_false _ ▸ due⟩

/-- A sweep that has begun at a moment and has ended by a time. -/
structure Sweep where
  start : Moment
  slow : SlowTransport
  order : SweepOrder
  ended : Nat

/-- Whether nothing of a sweep happens after its end. -/
def Sweep.IsTimely (sweep : Sweep) : Prop :=
  sweep.start.elapsed ≤ sweep.ended ∧ ∀ key, (sweep.slow.answeredAt key).elapsed ≤ sweep.ended

/-- What a sweep does to a dispatcher. -/
def outcomeOf (dispatcher : Dispatcher) (sweep : Sweep) : Outcome ReapReport :=
  dispatcher.reapSlowly sweep.start sweep.slow sweep.order

/-- The dispatcher after some sweeps. -/
def sweepAll (dispatcher : Dispatcher) : List Sweep → Dispatcher
  | [] => dispatcher
  | sweep :: sweeps => (dispatcher.outcomeOf sweep).dispatcher.sweepAll sweeps

/-- Whether before each sweep enough time goes by for all waits, and the transport lasts. -/
def SweptLate (dispatcher : Dispatcher) (clock : Nat) : List Sweep → Prop
  | [] => True
  | sweep :: sweeps =>
    clock + dispatcher.policy.longestWait ≤ sweep.start.elapsed ∧
    sweep.IsTimely ∧
    (dispatcher.outcomeOf sweep).answer.isOk = true ∧
    (dispatcher.outcomeOf sweep).dispatcher.SweptLate sweep.ended sweeps

theorem Indexed.sweepAll {dispatcher : Dispatcher} (indexed : dispatcher.Indexed)
    (sweeps : List Sweep) : (dispatcher.sweepAll sweeps).Indexed := by
  induction sweeps generalizing dispatcher with
  | nil => exact indexed
  | cons sweep sweeps ih => exact ih (indexed.upkeep (upkeep_reapSlowly ..))

/-- Late sweeps, as many as any command needs, leave no command. -/
theorem entries_sweepAll {dispatcher : Dispatcher} {offered : List Command}
    (tracks : dispatcher.Tracks offered) {clock : Nat}
    (waits : dispatcher.WaitsUntil (clock + dispatcher.policy.longestWait)) {sweeps : List Sweep}
    (late : dispatcher.SweptLate clock sweeps)
    (enough : ∀ key entry, dispatcher.entries.find? key = some entry →
      entry.sweepsLeft dispatcher.policy ≤ sweeps.length) :
    (dispatcher.sweepAll sweeps).entries = ∅ := by
  induction sweeps generalizing dispatcher offered clock with
  | nil =>
      refine SortedMap.ext_find? fun key => ?_
      cases found : dispatcher.entries.find? key with
      | none => exact found
      | some entry =>
          have positive := entry.sweepsLeft_pos dispatcher.policy
          have none := enough key entry found
          simp only [List.length_nil] at none
          omega
  | cons sweep sweeps ih =>
      rcases late with ⟨spaced, ⟨started, answered⟩, lasts, late⟩
      have upkeep : dispatcher.Upkeep (dispatcher.outcomeOf sweep).offered
          (dispatcher.outcomeOf sweep).dispatcher :=
        dispatcher.upkeep_reapSlowly sweep.start sweep.slow sweep.order
      have waited : dispatcher.WaitsUntil sweep.start.elapsed :=
        fun key entry found => (waits key entry found).trans spaced
      have stillWaits :
          dispatcher.WaitsUntil (sweep.ended + dispatcher.policy.longestWait) := by
        intro key entry found
        have time := waited key entry found
        omega
      refine ih (tracks.upkeep upkeep) ?_ late ?_
      · rw [upkeep.policy_eq]
        exact stillWaits.reapSlowly (Nat.add_le_add_right started _)
          (fun key => Nat.add_le_add_right (answered key) _) sweep.order
      · intro key entry found
        rcases sweepsLeft_lt_of_sweep tracks waited lasts found with ⟨former, formerFound, less⟩
        have formerEnough := enough key former formerFound
        rw [upkeep.policy_eq]
        simp only [List.length_cons] at formerEnough
        omega

/--
However a dispatcher was used before: if it is then left alone, but for twice as many sweeps as a
command may have attempts, each after the longest of all waits and in any order of the commands that
it sends again, and the transport lasts, neither a command nor a handle is left.
-/
theorem drained (policy : RetryPolicy) (source : Nat) (moves : List Move) (clock : Nat)
    (past : ∀ move ∈ moves, move.MadeBy clock) (sweeps : List Sweep)
    (enough : 2 * max 1 policy.maxAttempts.toNat ≤ sweeps.length)
    (late : ((new policy source).performAll moves).1.SweptLate clock sweeps) :
    let last := ((new policy source).performAll moves).1.sweepAll sweeps
    last.entries = ∅ ∧ last.handles = ∅ := by
  intro last
  have tracks := tracks_performAll policy source moves
  have samePolicy := performAll_policy (new policy source) moves
  have none : last.entries = ∅ := by
    refine entries_sweepAll tracks ?_ late ?_
    · rw [samePolicy]
      exact (waitsUntil_new policy source _).performAll past
    · intro key entry found
      have within := tracks.sweepsLeft_le found
      rw [samePolicy] at within ⊢
      exact within.trans enough
  have indexed := (indexed_performAll policy source moves).sweepAll sweeps
  exact ⟨none, indexed.handles_eq_empty none⟩

/-- A stop is forgotten after four sweeps of a transport that refuses it after ten seconds. -/
theorem drained_of_refused :
    let policy : RetryPolicy := { RetryPolicy.standard with maxAttempts := 2 }
    let stop : RequiredAction := .stopInstances ⟨"shop-api"⟩ ⟨"host-a"⟩ [⟨"i-1"⟩]
    let moves : List Move := [.dispatch ⟨0, ⟨0, 0⟩⟩ ⟨"prod"⟩ ⟨"shop"⟩ stop none]
    let refusing (minute : Nat) : Sweep :=
      { start := ⟨60000 * minute, ⟨60 * minute, 0⟩⟩
        slow :=
          { offeredAt := fun _ => ⟨60000 * minute, ⟨60 * minute, 0⟩⟩
            answeredAt := fun _ => ⟨60000 * minute + 10000, ⟨60 * minute + 10, 0⟩⟩
            result := fun _ => some (.transient "busy") }
        order := .byKey
        ended := 60000 * minute + 10000 }
    let last := ((new policy 0).performAll moves).1.sweepAll
      [refusing 1, refusing 3, refusing 5, refusing 7]
    last.entries = ∅ ∧ last.handles = ∅ := by
  intro policy stop moves refusing
  have timely : ∀ minute, (refusing minute).IsTimely :=
    fun minute => ⟨Nat.le_add_right _ _, fun _ => Nat.le_refl _⟩
  refine drained policy 0 moves 0 ?_ [refusing 1, refusing 3, refusing 5, refusing 7] (by decide) ?_
  · intro move member
    rw [List.mem_singleton.mp member]
    exact Nat.le_refl 0
  · refine ⟨?_, timely 1, ?_, ?_, timely 3, ?_, ?_, timely 5, ?_, ?_, timely 7, ?_, trivial⟩
    all_goals decide +kernel

end Dispatcher

end Reconciler
