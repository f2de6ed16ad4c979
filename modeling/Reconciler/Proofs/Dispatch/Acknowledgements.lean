import Reconciler.Proofs.Dispatch.Handles
import Reconciler.Proofs.Dispatch.LookUps

/-!
# Acknowledgements of tracked commands

What an acknowledgement does to the command that it is about. That a command has failed only counts
while the command is under way, but that it has succeeded counts at any time.
-/

namespace Reconciler

namespace Dispatcher

/-- An acknowledgement finds its command by the handle. -/
theorem onAck_of_indexed {dispatcher : Dispatcher} (indexed : dispatcher.Indexed)
    {key : IdempotencyKey} {entry : Entry} (found : dispatcher.entries.find? key = some entry)
    {ack : CommandAck} (named : ack.handle = entry.command.handle) (now : Moment) :
    dispatcher.onAck now ack =
      match ack.result with
      | .success =>
        ((dispatcher.recordSuccess now key entry.command.handle).1,
          .ok (dispatcher.recordSuccess now key entry.command.handle).2)
      | .failure retryable reason =>
        ((dispatcher.recordFailure now key entry.command.handle reason retryable).1,
          .ok (dispatcher.recordFailure now key entry.command.handle reason retryable).2) := by
  have held : dispatcher.handles.find? ack.handle = some key :=
    (indexed ack.handle key).mpr (handleAt?_eq_some_iff.mpr ⟨entry, found, named.symm⟩)
  rw [onAck, held]
  simp only [named]
  cases ack.result <;> rfl

section Found

variable {dispatcher : Dispatcher} {key : IdempotencyKey} {entry : Entry}

theorem retire_of_found (found : dispatcher.entries.find? key = some entry) :
    dispatcher.retire key entry.command.handle =
      ({ dispatcher with
          entries := dispatcher.entries.erase key
          handles := dispatcher.handles.erase entry.command.handle },
        true) := by
  simp [retire, found]

theorem recordSuccess_of_found (found : dispatcher.entries.find? key = some entry) (now : Moment) :
    dispatcher.recordSuccess now key entry.command.handle =
      (if entry.observed then (dispatcher.retire key entry.command.handle).1
        else dispatcher.withState key entry
          (.settled (now.elapsed + dispatcher.policy.entryTtl)),
        .settled) := by
  simp only [recordSuccess, found, ne_eq, not_true_eq_false, if_false]
  split <;> rfl

end Found

/--
However a dispatcher was used: that a finished command has failed is stale news that changes
nothing. That it has succeeded never is: the command is settled, from now on and for the whole time
that settled commands are remembered, or dropped if its effect was observed before it failed.
-/
theorem onAck_eq_stale_iff (policy : RetryPolicy) (source : Nat) (moves : List Move) (now : Moment)
    {key : IdempotencyKey} {entry : Entry}
    (found : ((new policy source).performAll moves).1.entries.find? key = some entry)
    (finished : entry.isInFlight = false) (ack : CommandAck)
    (named : ack.handle = entry.command.handle) :
    let dispatcher := ((new policy source).performAll moves).1
    (dispatcher.onAck now ack = (dispatcher, .ok .stale) ↔ ack.result ≠ .success) ∧
    (ack.result = .success → dispatcher.onAck now ack =
      (if entry.observed then (dispatcher.retire key entry.command.handle).1
        else dispatcher.withState key entry (.settled (now.elapsed + policy.entryTtl)),
        .ok .settled)) := by
  intro dispatcher
  replace found : dispatcher.entries.find? key = some entry := found
  have indexed : dispatcher.Indexed := indexed_performAll policy source moves
  have samePolicy : dispatcher.policy = policy := performAll_policy (new policy source) moves
  have answered := onAck_of_indexed indexed found named now
  cases result : ack.result with
  | success =>
      rw [result] at answered
      simp only [recordSuccess_of_found found, samePolicy] at answered
      refine ⟨?_, fun _ => answered⟩
      simp [answered]
  | failure retryable reason =>
      have stale : dispatcher.recordFailure now key entry.command.handle reason retryable =
          (dispatcher, .stale) := by
        refine dispatcher.recordFailure_of_stale now key _ fun other otherFound _ => ?_
        exact Option.some.inj (found.symm.trans otherFound) ▸ finished
      rw [result] at answered
      simp only [stale] at answered
      exact ⟨iff_of_true answered AckResult.noConfusion, AckResult.noConfusion⟩

/-- A command that was rejected for good is settled by a late acknowledgement. -/
theorem onAck_eq_stale_iff_of_late :
    let stop : RequiredAction := .stopInstances ⟨"shop-api"⟩ ⟨"host-a"⟩ [⟨"i-1"⟩]
    let rejected : CommandAck := ⟨.ofNumbers 0 0, default, .failure false "rejected"⟩
    let moves : List Move :=
      [.dispatch ⟨0, ⟨0, 0⟩⟩ ⟨"prod"⟩ ⟨"shop"⟩ stop none, .acknowledge ⟨100, ⟨0, 0⟩⟩ rejected]
    let dispatcher := ((new .standard 0).performAll moves).1
    let key := stop.idempotencyKey ⟨"prod"⟩
    ∃ entry, dispatcher.entries.find? key = some entry ∧ entry.isInFlight = false ∧
      dispatcher.onAck ⟨200, ⟨0, 0⟩⟩ rejected = (dispatcher, .ok .stale) ∧
      dispatcher.onAck ⟨200, ⟨0, 0⟩⟩ ⟨.ofNumbers 0 0, default, .success⟩ =
        (dispatcher.withState key entry (.settled 60200), .ok .settled) := by
  intro stop rejected moves dispatcher key
  have tracked : (dispatcher.entries.find? key).any (fun entry => !entry.isInFlight &&
      !entry.observed && entry.command.handle == .ofNumbers 0 0) = true := by decide +kernel
  rcases (Option.any_eq_true _ _).mp tracked with ⟨entry, found, known⟩
  simp only [Bool.and_eq_true, Bool.not_eq_true', beq_iff_eq] at known
  rcases known with ⟨⟨finished, unobserved⟩, named⟩
  have acknowledged := fun ack (isNamed : ack.handle = .ofNumbers 0 0) =>
    onAck_eq_stale_iff .standard 0 moves ⟨200, ⟨0, 0⟩⟩ found finished ack (isNamed.trans named.symm)
  refine ⟨entry, found, finished, (acknowledged rejected rfl).1.mpr AckResult.noConfusion, ?_⟩
  have settled := (acknowledged ⟨.ofNumbers 0 0, default, .success⟩ rfl).2 rfl
  rw [unobserved] at settled
  exact settled

/--
A late acknowledgement turns a stop that has failed for good into one that has succeeded, and one
that comes twice has the same stop suppressed for longer.
-/
theorem settles_when_finished :
    let stop : RequiredAction := .stopInstances ⟨"shop-api"⟩ ⟨"host-a"⟩ [⟨"i-1"⟩]
    let dispatch (elapsed : Nat) : Move := .dispatch ⟨elapsed, ⟨0, 0⟩⟩ ⟨"prod"⟩ ⟨"shop"⟩ stop none
    let acknowledge (elapsed : Nat) (result : AckResult) : Move :=
      .acknowledge ⟨elapsed, ⟨0, 0⟩⟩ ⟨.ofNumbers 0 0, default, result⟩
    let failed := [dispatch 0, acknowledge 100 (.failure false "rejected")]
    let settled := [dispatch 0, acknowledge 100 .success]
    let after (moves : List Move) := ((new .standard 0).performAll moves).1
    ((after failed).failuresFor ⟨"prod"⟩ ⟨"shop"⟩).length = 1 ∧
      (after (failed ++ [acknowledge 200 .success])).failuresFor ⟨"prod"⟩ ⟨"shop"⟩ = [] ∧
      ((after settled).perform (dispatch 70000)).2.length = 1 ∧
      ((after (settled ++ [acknowledge 60000 .success])).perform (dispatch 70000)).2 = [] := by
  decide +kernel

end Dispatcher

end Reconciler
