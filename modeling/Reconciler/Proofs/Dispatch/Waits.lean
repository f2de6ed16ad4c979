import Reconciler.Proofs.Dispatch.Attempts
import Reconciler.Proofs.Dispatch.Sweeps

/-!
# How long commands wait

Whatever a command waits for, it waits no longer than the longest of the waits that the policy
knows. After that time a sweep does something about it.
-/

namespace Reconciler

namespace RetryPolicy

/-- The longest wait of a command, whatever it waits for. -/
def longestWait (policy : RetryPolicy) : Nat :=
  max policy.ackTimeout (max policy.maxBackoff policy.entryTtl)

variable (policy : RetryPolicy)

theorem ackTimeout_le : policy.ackTimeout ≤ policy.longestWait :=
  Nat.le_max_left _ _

theorem entryTtl_le : policy.entryTtl ≤ policy.longestWait := by
  simp only [longestWait]
  omega

theorem backoff_le (attempt : UInt32) : policy.backoff attempt ≤ policy.longestWait := by
  simp only [backoff, longestWait]
  omega

end RetryPolicy

/-- The time at which the wait of a command is over. -/
def EntryState.time : EntryState → Nat
  | awaitingAck deadline => deadline
  | backoff retryAt => retryAt
  | settled expiresAt => expiresAt
  | failed expiresAt _ => expiresAt

namespace Entry

variable (policy : RetryPolicy) (now : Moment) (key : IdempotencyKey)

theorem time_failedOnce_le (reason : String) (retryable : Bool) (entry : Entry) :
    (entry.failedOnce policy now key reason retryable).state.time ≤
      now.elapsed + policy.longestWait := by
  simp only [failedOnce]
  split
  · exact Nat.add_le_add_left (policy.backoff_le _) _
  · exact Nat.add_le_add_left policy.entryTtl_le _

theorem time_concluded_le (entry : Entry) (result : SendResult) :
    (entry.concluded policy now key result).state.time ≤
      max entry.state.time (now.elapsed + policy.longestWait) := by
  cases result with
  | none => exact Nat.le_max_left _ _
  | some problem =>
      cases problem with
      | transient reason => exact (time_failedOnce_le ..).trans (Nat.le_max_right _ _)
      | fatal reason => exact (time_failedOnce_le ..).trans (Nat.le_max_right _ _)

end Entry

namespace Dispatcher

/-- No command waits beyond a time. -/
def WaitsUntil (dispatcher : Dispatcher) (latest : Nat) : Prop :=
  ∀ key entry, dispatcher.entries.find? key = some entry → entry.state.time ≤ latest

theorem waitsUntil_new (policy : RetryPolicy) (source latest : Nat) :
    (new policy source).WaitsUntil latest := by
  intro key entry found
  cases found

namespace WaitsUntil

variable {dispatcher : Dispatcher} {latest : Nat} {now : Moment} {key : IdempotencyKey}
  {handle : CommandHandle}

theorem retireAll (waits : dispatcher.WaitsUntil latest)
    (retired : List (IdempotencyKey × CommandHandle)) :
    (dispatcher.retireAll retired).1.WaitsUntil latest := by
  intro other entry found
  rw [find?_retireAll, Option.filter_eq_some_iff] at found
  exact waits other entry found.1

theorem recordFailure (waits : dispatcher.WaitsUntil latest)
    (early : now.elapsed + dispatcher.policy.longestWait ≤ latest) (reason : String)
    (retryable : Bool) :
    (dispatcher.recordFailure now key handle reason retryable).1.WaitsUntil latest := by
  intro other entry found
  rw [find?_recordFailure, Option.map_eq_some_iff] at found
  rcases found with ⟨former, formerFound, rfl⟩
  split
  · exact (Entry.time_failedOnce_le ..).trans early
  · exact waits other former formerFound

theorem recordSuccess (waits : dispatcher.WaitsUntil latest)
    (early : now.elapsed + dispatcher.policy.longestWait ≤ latest) :
    (dispatcher.recordSuccess now key handle).1.WaitsUntil latest := by
  intro other entry found
  rw [find?_recordSuccess, Option.bind_eq_some_iff] at found
  rcases found with ⟨former, formerFound, left⟩
  split at left
  · split at left
    · cases left
    · obtain rfl := Option.some.inj left
      exact (Nat.add_le_add_left dispatcher.policy.entryTtl_le _).trans early
  · exact Option.some.inj left ▸ waits other former formerFound

theorem onAck (waits : dispatcher.WaitsUntil latest)
    (early : now.elapsed + dispatcher.policy.longestWait ≤ latest) (ack : CommandAck) :
    (dispatcher.onAck now ack).1.WaitsUntil latest := by
  rw [Dispatcher.onAck]
  split
  · exact waits
  · simp only
    split
    · exact waits.recordSuccess early
    · exact waits.recordFailure early _ _

theorem conclude (waits : dispatcher.WaitsUntil latest)
    (early : now.elapsed + dispatcher.policy.longestWait ≤ latest) (command : Command)
    (result : SendResult) : (dispatcher.conclude now command result).1.WaitsUntil latest := by
  intro key entry found
  rw [find?_conclude, Option.map_eq_some_iff] at found
  rcases found with ⟨former, formerFound, rfl⟩
  have formerWaits := waits key former formerFound
  split
  · have concluded := former.time_concluded_le dispatcher.policy now command.key result
    omega
  · exact formerWaits

/-- A command may be entered, or entered again, if it waits no longer than the others. -/
theorem insert (waits : dispatcher.WaitsUntil latest) {entry : Entry}
    (early : entry.state.time ≤ latest) {next : Dispatcher}
    (entries : next.entries = dispatcher.entries.insert key entry) : next.WaitsUntil latest := by
  intro other _ found
  rw [entries, SortedMap.find?_insert] at found
  split at found
  · exact Option.some.inj found ▸ early
  · exact waits other _ found

theorem propose (waits : dispatcher.WaitsUntil latest)
    (early : now.elapsed + dispatcher.policy.longestWait ≤ latest) (lattice : LatticeId)
    (app : AppName) (action : RequiredAction) :
    (dispatcher.propose now lattice app action).1.WaitsUntil latest := by
  rcases dispatcher.propose_cases now lattice app action with
    ⟨command, _, proposed⟩ | ⟨handle, proposed | proposed⟩
  · rw [proposed]
    refine waits.insert ?_ rfl
    exact (Nat.add_le_add_left dispatcher.policy.ackTimeout_le _).trans early
  · rw [proposed]
    exact waits
  · rw [proposed]
    exact waits

theorem dispatch (waits : dispatcher.WaitsUntil latest)
    (early : now.elapsed + dispatcher.policy.longestWait ≤ latest) (lattice : LatticeId)
    (app : AppName) (action : RequiredAction) (result : SendResult) :
    (dispatcher.dispatch now lattice app action result).dispatcher.WaitsUntil latest := by
  have proposed := waits.propose early lattice app action
  rw [← dispatcher.propose_policy now lattice app action] at early
  simp only [Dispatcher.dispatch]
  split <;> rename_i answered <;> rw [answered] at proposed early
  · exact proposed
  · exact proposed
  · exact proposed.conclude early _ result

theorem observe (waits : dispatcher.WaitsUntil latest) (lattice : LatticeId)
    (component : ComponentId) (host : Option HostId) :
    (dispatcher.observe lattice component host).1.WaitsUntil latest := by
  refine retireAll (fun key entry found => ?_) _
  rw [SortedMap.find?_mapValues, Option.map_eq_some_iff] at found
  rcases found with ⟨former, formerFound, rfl⟩
  have sameState : (markObserved lattice component host former).state = former.state := by
    rw [markObserved]
    split <;> rfl
  rw [sameState]
  exact waits key former formerFound

theorem beginSweep (waits : dispatcher.WaitsUntil latest)
    (early : now.elapsed + dispatcher.policy.longestWait ≤ latest) :
    (dispatcher.beginSweep now).1.WaitsUntil latest := by
  intro key entry found
  rw [find?_beginSweep, Option.bind_eq_some_iff] at found
  rcases found with ⟨former, formerFound, swept⟩
  rw [Entry.swept] at swept
  split at swept
  · split at swept
    · cases swept
    · exact Option.some.inj swept ▸ (Entry.time_failedOnce_le ..).trans early
  · split at swept
    · cases swept
    · exact Option.some.inj swept ▸ waits key former formerFound

theorem reenter? (waits : dispatcher.WaitsUntil latest) {start : Moment} {next : Dispatcher}
    {command : Command} (early : start.elapsed + dispatcher.policy.longestWait ≤ latest)
    (reentered : dispatcher.reenter? start now key = some (next, command)) :
    next.WaitsUntil latest := by
  rcases (reenter?_eq_some_iff ..).mp reentered with ⟨entry, _, _, rfl, _⟩
  refine waits.insert ?_ rfl
  exact (Nat.add_le_add_left dispatcher.policy.ackTimeout_le _).trans early

theorem resendSlowly (waits : dispatcher.WaitsUntil latest) {slow : SlowTransport}
    (early : now.elapsed + dispatcher.policy.longestWait ≤ latest)
    (prompt : ∀ key, (slow.answeredAt key).elapsed + dispatcher.policy.longestWait ≤ latest)
    (offered : List Command) (report : ReapReport) (keys : List IdempotencyKey) :
    (dispatcher.resendSlowly now slow offered report keys).dispatcher.WaitsUntil latest := by
  induction keys generalizing dispatcher offered report with
  | nil => exact waits
  | cons key keys ih =>
      rw [Dispatcher.resendSlowly]
      split
      · exact ih waits early prompt offered report
      · rename_i next command reentered
        have policyNext := (upkeep_reenter? reentered).policy_eq
        have concluded := (waits.reenter? early reentered).conclude (policyNext ▸ prompt key)
          command (slow.result command)
        have policyLast :=
          (next.upkeep_conclude (slow.answeredAt key) command (slow.result command)).policy_eq
        rw [policyNext] at policyLast
        split
        · rename_i last problem answered
          rw [answered] at concluded
          exact concluded
        · rename_i last outcome answered
          rw [answered] at concluded policyLast
          rw [← policyLast] at early prompt
          exact ih concluded early prompt _ _

theorem reapSlowly (waits : dispatcher.WaitsUntil latest) {slow : SlowTransport}
    (early : now.elapsed + dispatcher.policy.longestWait ≤ latest)
    (prompt : ∀ key, (slow.answeredAt key).elapsed + dispatcher.policy.longestWait ≤ latest)
    (order : SweepOrder) : (dispatcher.reapSlowly now slow order).dispatcher.WaitsUntil latest := by
  have begun := waits.beginSweep early
  rw [← (dispatcher.upkeep_beginSweep now).policy_eq] at early prompt
  exact begun.resendSlowly early prompt [] _ _

theorem sweep (waits : dispatcher.WaitsUntil latest)
    (early : now.elapsed + dispatcher.policy.longestWait ≤ latest)
    (transport : Command → SendResult) :
    (dispatcher.reapTimeouts now transport).dispatcher.WaitsUntil latest := by
  rw [← reapSlowly_atOnce]
  exact waits.reapSlowly early (fun _ => early) .byKey

end WaitsUntil

/-- Whether a move was made by a time. -/
def Move.MadeBy (clock : Nat) : Move → Prop
  | .dispatch now .. => now.elapsed ≤ clock
  | .acknowledge now _ => now.elapsed ≤ clock
  | .sweep now _ => now.elapsed ≤ clock
  | .observe .. => True
  | .propose now .. => now.elapsed ≤ clock
  | .beginSweep now => now.elapsed ≤ clock
  | .reenter start .. => start.elapsed ≤ clock
  | .conclude now .. => now.elapsed ≤ clock

theorem WaitsUntil.perform {dispatcher : Dispatcher} {clock : Nat}
    (waits : dispatcher.WaitsUntil (clock + dispatcher.policy.longestWait)) {move : Move}
    (past : move.MadeBy clock) :
    (dispatcher.perform move).1.WaitsUntil (clock + dispatcher.policy.longestWait) := by
  have early : ∀ {elapsed}, elapsed ≤ clock →
      elapsed + dispatcher.policy.longestWait ≤ clock + dispatcher.policy.longestWait :=
    fun before => Nat.add_le_add_right before _
  cases move with
  | dispatch now lattice app action result =>
      exact waits.dispatch (early past) lattice app action result
  | acknowledge now ack => exact waits.onAck (early past) ack
  | sweep now transport => exact waits.sweep (early past) transport
  | observe lattice component host => exact waits.observe lattice component host
  | propose now lattice app action =>
      have proposed := waits.propose (early past) lattice app action
      simp only [Dispatcher.perform]
      split <;> rename_i answered <;> rwa [answered] at proposed
  | beginSweep now => exact waits.beginSweep (early past)
  | reenter start now key =>
      simp only [Dispatcher.perform]
      split
      · rename_i next command reentered
        exact waits.reenter? (early past) reentered
      · exact waits
  | conclude now command result => exact waits.conclude (early past) command result

theorem WaitsUntil.performAll {dispatcher : Dispatcher} {clock : Nat}
    (waits : dispatcher.WaitsUntil (clock + dispatcher.policy.longestWait)) {moves : List Move}
    (past : ∀ move ∈ moves, move.MadeBy clock) :
    (dispatcher.performAll moves).1.WaitsUntil (clock + dispatcher.policy.longestWait) := by
  induction moves generalizing dispatcher with
  | nil => exact waits
  | cons move moves ih =>
      rcases List.forall_mem_cons.mp past with ⟨firstPast, restPast⟩
      have samePolicy := performAll_policy dispatcher [move]
      have next := waits.perform firstPast
      rw [← samePolicy] at next ⊢
      exact ih next restPast

end Dispatcher

end Reconciler
