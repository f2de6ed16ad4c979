import Mathlib.Data.List.Nodup
import Reconciler.Proofs.Dispatch.Upkeep

/-!
# What calls make of single commands

What a call leaves under a key is told from what was there before: that a command is dropped, that
it has failed once more, or that it was offered again and the transport has answered. The sweeps go
over many commands and treat each on its own, so that what becomes of one does not depend on the
others; only a transport that is gone ends a sweep early.
-/

namespace Reconciler

namespace Entry

variable (policy : RetryPolicy)

/-- An entry whose command has failed once more, and is to be sent again or has failed for good. -/
def failedOnce (now : Moment) (key : IdempotencyKey) (reason : String) (retryable : Bool)
    (entry : Entry) : Entry :=
  { entry with
    state :=
      if retryable && !policy.isExhausted entry.command.attempt then
        .backoff (now.elapsed + policy.backoff entry.command.attempt)
      else
        .failed (now.elapsed + policy.entryTtl) (Dispatcher.failureReport now key entry reason) }

@[simp]
theorem failedOnce_command (now : Moment) (key : IdempotencyKey) (reason : String)
    (retryable : Bool) (entry : Entry) :
    (entry.failedOnce policy now key reason retryable).command = entry.command :=
  rfl

/-- What the first part of a sweep leaves of an entry. -/
def swept (now : Moment) (key : IdempotencyKey) (entry : Entry) : Option Entry :=
  if Dispatcher.isOverdue now.elapsed entry then
    if entry.observed then none
    else some (entry.failedOnce policy now key Dispatcher.timeoutReason true)
  else if entry.observed && Dispatcher.isDue now.elapsed entry ||
      Dispatcher.isExpired now.elapsed entry then none
  else some entry

/-- The entry of a command that is offered for the first time. -/
def entered (now : Moment) (command : Command) : Entry :=
  ⟨command, .awaitingAck (now.elapsed + policy.ackTimeout), false⟩

/-- An entry whose command is offered once more, in a sweep that has begun at a moment. -/
def reentered (start now : Moment) (entry : Entry) : Entry :=
  { entry with
    command := entry.command.again now.wall
    state := .awaitingAck (start.elapsed + policy.ackTimeout) }

/-- An entry whose command was offered, when the transport has answered. -/
def concluded (now : Moment) (key : IdempotencyKey) (entry : Entry) : SendResult → Entry
  | none => entry
  | some (.transient reason) => entry.failedOnce policy now key reason true
  | some (.fatal reason) => entry.failedOnce policy now key (SinkError.fatal reason).message false

theorem concluded_command (now : Moment) (key : IdempotencyKey) (entry : Entry)
    (result : SendResult) : (entry.concluded policy now key result).command = entry.command := by
  cases result with
  | none => rfl
  | some problem => cases problem <;> rfl

/-- An entry whose command a sweep offers once more. -/
def offeredAgain (start : Moment) (slow : Dispatcher.SlowTransport) (entry : Entry) : Entry :=
  entry.reentered policy start (slow.offeredAt entry.command.key)

/-- An entry whose command a sweep has offered once more, and the transport has answered. -/
def resent (start : Moment) (slow : Dispatcher.SlowTransport) (entry : Entry) : Entry :=
  let again := entry.offeredAgain policy start slow
  again.concluded policy (slow.answeredAt entry.command.key) entry.command.key
    (slow.result again.command)

end Entry

namespace Dispatcher

theorem filter_eq_self {α : Type} {value : Option α} {test : α → Bool}
    (passes : ∀ element, test element = true) : value.filter test = value := by
  cases value with
  | none => rfl
  | some element => rw [Option.filter_some, if_pos (passes element)]

section LookUps

variable (dispatcher : Dispatcher) (now : Moment) (key other : IdempotencyKey)
  (handle : CommandHandle)

theorem find?_retire :
    (dispatcher.retire key handle).1.entries.find? other =
      (dispatcher.entries.find? other).filter fun entry =>
        (other, entry.command.handle) ≠ (key, handle) := by
  rw [retire]
  by_cases same : other = key
  · subst same
    cases found : dispatcher.entries.find? other with
    | none => simp [found]
    | some entry =>
        by_cases named : entry.command.handle = handle
        · simp [named, Option.filter_some]
        · simp [named, found, Option.filter_some]
  · have passes : ∀ entry : Entry,
        decide ((other, entry.command.handle) ≠ (key, handle)) = true := by
      intro entry
      simp [same]
    rw [filter_eq_self passes]
    split
    · split
      · simp [same]
      · rfl
    · rfl

theorem find?_retireAll (retired : List (IdempotencyKey × CommandHandle)) :
    (dispatcher.retireAll retired).1.entries.find? other =
      (dispatcher.entries.find? other).filter fun entry =>
        (other, entry.command.handle) ∉ retired := by
  induction retired generalizing dispatcher with
  | nil => exact (filter_eq_self (by simp)).symm
  | cons head rest ih =>
      rcases head with ⟨key, handle⟩
      simp only [retireAll]
      rw [ih, find?_retire, Option.filter_filter]
      simp only [List.mem_cons, not_or, ne_eq, Bool.decide_and]

theorem mem_select_iff {test : Entry → Bool} :
    (key, handle) ∈ dispatcher.select test ↔
      ∃ entry, dispatcher.entries.find? key = some entry ∧ test entry = true ∧
        entry.command.handle = handle := by
  simp only [select, SortedMap.filter, List.mem_map, List.mem_filter, Prod.exists, Prod.mk.injEq,
    SortedMap.mem_entries_iff]
  constructor
  · rintro ⟨_, entry, ⟨found, passes⟩, rfl, named⟩
    exact ⟨entry, found, passes, named⟩
  · rintro ⟨entry, found, passes, named⟩
    exact ⟨key, entry, ⟨found, passes⟩, rfl, named⟩

theorem nodup_select (test : Entry → Bool) : ((dispatcher.select test).map Prod.fst).Nodup := by
  rw [select, List.map_map]
  exact SortedMap.nodup_keys _

theorem recordFailure_of_inFlight {entry : Entry}
    (found : dispatcher.entries.find? key = some entry) (inFlight : entry.isInFlight = true)
    (reason : String) (retryable : Bool) :
    (dispatcher.recordFailure now key entry.command.handle reason retryable).1 =
      { dispatcher with
        entries := dispatcher.entries.insert key
          (entry.failedOnce dispatcher.policy now key reason retryable) } := by
  simp only [recordFailure, found, inFlight, ne_eq, not_true_eq_false, Bool.not_true,
    Bool.false_eq_true, or_self, if_false, Entry.failedOnce]
  split <;> rfl

theorem recordFailure_of_stale {reason : String} {retryable : Bool}
    (stale : ∀ entry, dispatcher.entries.find? key = some entry → entry.command.handle = handle →
      entry.isInFlight = false) :
    dispatcher.recordFailure now key handle reason retryable = (dispatcher, .stale) := by
  rw [recordFailure]
  split
  · rfl
  · rename_i entry found
    rw [if_pos]
    by_cases named : entry.command.handle = handle
    · exact Or.inr (by rw [stale entry found named]; rfl)
    · exact Or.inl named

theorem find?_recordFailure (reason : String) (retryable : Bool) :
    (dispatcher.recordFailure now key handle reason retryable).1.entries.find? other =
      (dispatcher.entries.find? other).map fun entry =>
        if (other, entry.command.handle) = (key, handle) ∧ entry.isInFlight = true then
          entry.failedOnce dispatcher.policy now key reason retryable
        else entry := by
  by_cases failing : ∃ entry, dispatcher.entries.find? key = some entry ∧
      entry.command.handle = handle ∧ entry.isInFlight = true
  · rcases failing with ⟨entry, found, rfl, inFlight⟩
    rw [dispatcher.recordFailure_of_inFlight now key found inFlight, SortedMap.find?_insert]
    by_cases same : other = key
    · subst same
      simp [found, inFlight]
    · simp [same]
  · have stale : ∀ entry, dispatcher.entries.find? key = some entry →
        entry.command.handle = handle → entry.isInFlight = false := by
      intro entry found named
      by_contra inFlight
      exact failing ⟨entry, found, named, Bool.not_eq_false _ ▸ inFlight⟩
    rw [dispatcher.recordFailure_of_stale now key handle stale]
    cases found : dispatcher.entries.find? other with
    | none => rfl
    | some entry =>
        rw [Option.map_some, if_neg]
        rintro ⟨named, inFlight⟩
        rcases Prod.mk.inj named with ⟨rfl, isNamed⟩
        rw [stale entry found isNamed] at inFlight
        cases inFlight

theorem find?_recordSuccess :
    (dispatcher.recordSuccess now key handle).1.entries.find? other =
      (dispatcher.entries.find? other).bind fun entry =>
        if (other, entry.command.handle) = (key, handle) then
          if entry.observed then none
          else
            some { entry with state := .settled (now.elapsed + dispatcher.policy.entryTtl) }
        else some entry := by
  by_cases same : other = key
  · subst same
    rw [recordSuccess]
    cases found : dispatcher.entries.find? other with
    | none => simp [found]
    | some entry =>
        by_cases named : entry.command.handle = handle
        · cases observed : entry.observed with
          | true => simp [found, named, observed, find?_retire, Option.filter_some]
          | false => simp [named, observed, withState]
        · simp [found, named]
  · have kept : (dispatcher.recordSuccess now key handle).1.entries.find? other =
        dispatcher.entries.find? other := by
      rw [recordSuccess]
      split
      · rfl
      · split
        · rfl
        · split
          · rw [find?_retire, filter_eq_self (by simp [same])]
          · simp [withState, same]
    rw [kept]
    simp [same]

theorem find?_timeOutAll {overdue : List (IdempotencyKey × CommandHandle)}
    (nodup : (overdue.map Prod.fst).Nodup) :
    (dispatcher.timeOutAll now overdue).1.entries.find? other =
      (dispatcher.entries.find? other).map fun entry =>
        if (other, entry.command.handle) ∈ overdue ∧ entry.isInFlight = true then
          entry.failedOnce dispatcher.policy now other timeoutReason true
        else entry := by
  induction overdue generalizing dispatcher with
  | nil => simp [timeOutAll]
  | cons head rest ih =>
      rcases head with ⟨key, handle⟩
      rcases List.nodup_cons.mp nodup with ⟨isNew, restNodup⟩
      have first := dispatcher.find?_recordFailure now key other handle timeoutReason true
      have samePolicy :=
        (dispatcher.upkeep_recordFailure now key handle timeoutReason true).policy_eq
      let next := (dispatcher.recordFailure now key handle timeoutReason true).1
      have step : (dispatcher.timeOutAll now ((key, handle) :: rest)).1 =
          (next.timeOutAll now rest).1 := by
        simp only [timeOutAll]
        split <;> rfl
      rw [step, ih _ restNodup, first, samePolicy, Option.map_map]
      refine congrArg (fun change => Option.map change _) (funext fun entry => ?_)
      by_cases same : other = key
      · subst same
        have notInRest : ∀ named : CommandHandle, (other, named) ∉ rest :=
          fun named member => isNew (List.mem_map.mpr ⟨_, member, rfl⟩)
        simp [notInRest]
      · simp [same]

theorem find?_conclude (command : Command) (result : SendResult) :
    (dispatcher.conclude now command result).1.entries.find? other =
      (dispatcher.entries.find? other).map fun entry =>
        if (other, entry.command.handle) = (command.key, command.handle) ∧
            entry.isInFlight = true then
          entry.concluded dispatcher.policy now command.key result
        else entry := by
  rw [conclude.eq_def]
  cases result with
  | none => simp [Entry.concluded]
  | some problem =>
      cases problem with
      | transient reason => exact dispatcher.find?_recordFailure now command.key other _ reason true
      | fatal reason => exact dispatcher.find?_recordFailure now command.key other _ _ false

end LookUps

end Dispatcher

end Reconciler
