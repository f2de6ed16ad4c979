import Reconciler.Dispatch.Sweep
import Reconciler.Proofs.SortedMap

/-!
# What calls do to tracked commands

A dispatcher enters a new command only when it dispatches an action. All else that it does is upkeep
of the commands that it tracks already, in a few kinds of steps. `Dispatcher.perform_cases` takes
every call apart into the entry of a command, if there is one, and upkeep, so that what these keep
is kept by all calls.

A transport may take its time, so that time goes by in a call. `Dispatcher.dispatchSlowly` and
`Dispatcher.reapSlowly` are calls with any transport, and they come to the known ones if the
transport answers at once. A sweep may come to the commands on its list in any order.
-/

namespace Reconciler

/-- The command as it is offered once more. -/
def Command.again (command : Command) (issuedAt : Timestamp) : Command :=
  { command with attempt := command.attempt + 1, issuedAt := issuedAt }

namespace Dispatcher

/-- A step of upkeep, and the commands offered to the transport in it. -/
inductive UpkeepStep : Dispatcher → List Command → Dispatcher → Prop
  /-- A command that waits to be sent again is offered once more. -/
  | resend {dispatcher : Dispatcher} {key : IdempotencyKey} {entry : Entry} {retryAt : Nat}
      (found : dispatcher.entries.find? key = some entry) (waits : entry.state = .backoff retryAt)
      (issuedAt : Timestamp) (deadline : Nat) :
      UpkeepStep dispatcher [entry.command.again issuedAt]
        { dispatcher with
          entries := dispatcher.entries.insert key
            { entry with
              command := entry.command.again issuedAt
              state := .awaitingAck deadline } }
  /-- A command changes its state; it waits to be sent again only while it has attempts left. -/
  | record {dispatcher : Dispatcher} {key : IdempotencyKey} {entry : Entry} {state : EntryState}
      (found : dispatcher.entries.find? key = some entry)
      (allowed : ∀ retryAt, state = .backoff retryAt →
        dispatcher.policy.isExhausted entry.command.attempt = false) :
      UpkeepStep dispatcher [] (dispatcher.withState key entry state)
  /-- Something has happened where commands are to have their effect. -/
  | mark (dispatcher : Dispatcher) (lattice : LatticeId) (component : ComponentId)
      (host : Option HostId) :
      UpkeepStep dispatcher []
        { dispatcher with
          entries := dispatcher.entries.mapValues fun _ => markObserved lattice component host }
  /-- A command is no longer tracked. -/
  | drop {dispatcher : Dispatcher} {key : IdempotencyKey} {entry : Entry}
      (found : dispatcher.entries.find? key = some entry) :
      UpkeepStep dispatcher []
        { dispatcher with
          entries := dispatcher.entries.erase key
          handles := dispatcher.handles.erase entry.command.handle }

/--
What is tracked after a step of upkeep was tracked before, and has kept its mark; the command is the
same, but for the attempt.
-/
theorem UpkeepStep.exists_former {dispatcher next : Dispatcher} {offered : List Command}
    (step : UpkeepStep dispatcher offered next) {key : IdempotencyKey} {entry : Entry}
    (found : next.entries.find? key = some entry) :
    ∃ former attempt issuedAt, dispatcher.entries.find? key = some former ∧
      entry.command = { former.command with attempt := attempt, issuedAt := issuedAt } ∧
      (former.observed = true → entry.observed = true) := by
  cases step with
  | resend formerFound waits issuedAt deadline =>
      rw [SortedMap.find?_insert] at found
      split at found
      · rename_i same
        subst same
        obtain rfl := Option.some.inj found
        exact ⟨_, _, _, formerFound, rfl, id⟩
      · exact ⟨entry, _, _, found, rfl, id⟩
  | record formerFound allowed =>
      rw [withState, SortedMap.find?_insert] at found
      split at found
      · rename_i same
        subst same
        obtain rfl := Option.some.inj found
        exact ⟨_, _, _, formerFound, rfl, id⟩
      · exact ⟨entry, _, _, found, rfl, id⟩
  | mark lattice component host =>
      rw [SortedMap.find?_mapValues, Option.map_eq_some_iff] at found
      rcases found with ⟨former, formerFound, rfl⟩
      refine ⟨former, former.command.attempt, former.command.issuedAt, formerFound, ?_⟩
      rw [markObserved]
      split
      · exact ⟨rfl, fun _ => rfl⟩
      · exact ⟨rfl, id⟩
  | drop formerFound =>
      rw [SortedMap.find?_erase] at found
      split at found
      · cases found
      · exact ⟨entry, _, _, found, rfl, id⟩

/-- Any number of steps of upkeep, and the commands offered in them, in order. -/
inductive Upkeep : Dispatcher → List Command → Dispatcher → Prop
  | refl (dispatcher : Dispatcher) : Upkeep dispatcher [] dispatcher
  | head {dispatcher next last : Dispatcher} {first rest : List Command}
      (step : UpkeepStep dispatcher first next) (more : Upkeep next rest last) :
      Upkeep dispatcher (first ++ rest) last

theorem UpkeepStep.upkeep {dispatcher next : Dispatcher} {offered : List Command}
    (step : UpkeepStep dispatcher offered next) : Upkeep dispatcher offered next := by
  have more := Upkeep.head step (.refl next)
  rwa [List.append_nil] at more

theorem Upkeep.trans {dispatcher next last : Dispatcher} {first rest : List Command}
    (upkeep : Upkeep dispatcher first next) (more : Upkeep next rest last) :
    Upkeep dispatcher (first ++ rest) last := by
  induction upkeep with
  | refl _ => exact more
  | head step _ ih =>
      rw [List.append_assoc]
      exact .head step (ih more)

/-- What every step of upkeep keeps is kept by any number of steps. -/
theorem Upkeep.keeps {motive : Dispatcher → Prop}
    (step : ∀ {former next more}, UpkeepStep former more next → motive former → motive next)
    {dispatcher next : Dispatcher} {offered : List Command}
    (upkeep : Upkeep dispatcher offered next) (holds : motive dispatcher) : motive next := by
  induction upkeep with
  | refl _ => exact holds
  | head first _ ih => exact ih (step first holds)

theorem Upkeep.policy_eq {dispatcher next : Dispatcher} {offered : List Command}
    (upkeep : Upkeep dispatcher offered next) : next.policy = dispatcher.policy := by
  induction upkeep with
  | refl _ => rfl
  | head step _ ih => cases step <;> exact ih

/-- Dispatches an action, where the transport has answered at a later moment. -/
def dispatchSlowly (dispatcher : Dispatcher) (now later : Moment) (lattice : LatticeId)
    (app : AppName) (action : RequiredAction) (result : SendResult) : Outcome DispatchOutcome :=
  match dispatcher.propose now lattice app action with
  | (dispatcher, .merge handle) => ⟨dispatcher, [], .ok (.merged handle)⟩
  | (dispatcher, .suppress handle) => ⟨dispatcher, [], .ok (.suppressed handle)⟩
  | (dispatcher, .offer command) =>
    let (dispatcher, concluded) := dispatcher.conclude later command result
    ⟨dispatcher, [command], concluded.map fun _ => .sent command.handle⟩

/-- A transport that takes its time: when commands are offered to it, by key, and its answers. -/
structure SlowTransport where
  offeredAt : IdempotencyKey → Moment
  answeredAt : IdempotencyKey → Moment
  result : Command → SendResult

/-- A transport that answers at once, when everything happens at one moment. -/
@[simps]
def SlowTransport.atOnce (now : Moment) (transport : Command → SendResult) : SlowTransport :=
  ⟨fun _ => now, fun _ => now, transport⟩

/-- An order in which sweeps come to the commands on their lists. -/
structure SweepOrder where
  arrange : List IdempotencyKey → List IdempotencyKey
  perm : ∀ keys, (arrange keys).Perm keys

/-- Sweeps come to the commands as they are listed, which is by their keys. -/
def SweepOrder.byKey : SweepOrder :=
  ⟨id, List.Perm.refl⟩

/--
The second part of a sweep that has begun at a moment: sends commands again. The commands offered so
far are given last first.
-/
def resendSlowly (dispatcher : Dispatcher) (start : Moment) (slow : SlowTransport)
    (offered : List Command) (report : ReapReport) : List IdempotencyKey → Outcome ReapReport
  | [] => ⟨dispatcher, offered.reverse, .ok report⟩
  | key :: keys =>
    match dispatcher.reenter? start (slow.offeredAt key) key with
    | none => dispatcher.resendSlowly start slow offered report keys
    | some (dispatcher, command) =>
      match dispatcher.conclude (slow.answeredAt key) command (slow.result command) with
      | (dispatcher, .error problem) =>
        ⟨dispatcher, (command :: offered).reverse, .error problem⟩
      | (dispatcher, .ok outcome) =>
        dispatcher.resendSlowly start slow (command :: offered)
          (noteOutcome (noteRetry report command) outcome) keys

/-- A whole sweep, with nothing else in between. -/
def reapSlowly (dispatcher : Dispatcher) (start : Moment) (slow : SlowTransport)
    (order : SweepOrder) : Outcome ReapReport :=
  let (dispatcher, report, due) := dispatcher.beginSweep start
  dispatcher.resendSlowly start slow [] report (order.arrange due)

theorem resendSlowly_atOnce (dispatcher : Dispatcher) (now : Moment)
    (transport : Command → SendResult) (offered : List Command) (report : ReapReport)
    (keys : List IdempotencyKey) :
    dispatcher.resendSlowly now (.atOnce now transport) offered report keys =
      dispatcher.resendAll now transport offered report keys := by
  induction keys generalizing dispatcher offered report with
  | nil => rfl
  | cons key keys ih =>
      rw [resendSlowly, resendAll, SlowTransport.atOnce_offeredAt]
      cases dispatcher.reenter? now now key with
      | none => exact ih dispatcher offered report
      | some reentered =>
          rcases reentered with ⟨next, command⟩
          simp only [SlowTransport.atOnce_answeredAt, SlowTransport.atOnce_result]
          cases next.conclude now command (transport command) with
          | mk last answer =>
              cases answer with
              | error problem => rfl
              | ok outcome => exact ih last _ _

theorem reapSlowly_atOnce (dispatcher : Dispatcher) (now : Moment)
    (transport : Command → SendResult) :
    dispatcher.reapSlowly now (.atOnce now transport) .byKey =
      dispatcher.reapTimeouts now transport :=
  resendSlowly_atOnce ..

section Calls

variable (dispatcher : Dispatcher) (now : Moment)

theorem upkeep_retire (key : IdempotencyKey) (handle : CommandHandle) :
    Upkeep dispatcher [] (dispatcher.retire key handle).1 := by
  rw [retire]
  split
  · rename_i entry found
    split
    · rename_i same
      subst same
      exact (UpkeepStep.drop found).upkeep
    · exact .refl dispatcher
  · exact .refl dispatcher

theorem upkeep_retireAll (retired : List (IdempotencyKey × CommandHandle)) :
    Upkeep dispatcher [] (dispatcher.retireAll retired).1 := by
  induction retired generalizing dispatcher with
  | nil => exact .refl dispatcher
  | cons head rest ih => exact (dispatcher.upkeep_retire head.1 head.2).trans (ih _)

theorem upkeep_recordFailure (key : IdempotencyKey) (handle : CommandHandle) (reason : String)
    (retryable : Bool) :
    Upkeep dispatcher [] (dispatcher.recordFailure now key handle reason retryable).1 := by
  rw [recordFailure]
  split
  · exact .refl dispatcher
  · rename_i entry found
    split
    · exact .refl dispatcher
    · simp only
      split
      · rename_i mayRetry
        have left : dispatcher.policy.isExhausted entry.command.attempt = false := by
          simp only [Bool.and_eq_true, Bool.not_eq_true'] at mayRetry
          exact mayRetry.2
        exact (UpkeepStep.record found fun _ _ => left).upkeep
      · exact (UpkeepStep.record found fun _ => EntryState.noConfusion).upkeep

theorem upkeep_recordSuccess (key : IdempotencyKey) (handle : CommandHandle) :
    Upkeep dispatcher [] (dispatcher.recordSuccess now key handle).1 := by
  rw [recordSuccess]
  split
  · exact .refl dispatcher
  · rename_i entry found
    split
    · exact .refl dispatcher
    · split
      · exact dispatcher.upkeep_retire key handle
      · exact (UpkeepStep.record found fun _ => EntryState.noConfusion).upkeep

theorem upkeep_timeOutAll (overdue : List (IdempotencyKey × CommandHandle)) :
    Upkeep dispatcher [] (dispatcher.timeOutAll now overdue).1 := by
  induction overdue generalizing dispatcher with
  | nil => exact .refl dispatcher
  | cons head rest ih =>
      have both := (dispatcher.upkeep_recordFailure now head.1 head.2 timeoutReason true).trans
        (ih _)
      simp only [timeOutAll]
      split <;> exact both

theorem upkeep_conclude (command : Command) (result : SendResult) :
    Upkeep dispatcher [] (dispatcher.conclude now command result).1 := by
  rw [conclude.eq_def]
  split
  · exact .refl dispatcher
  · exact dispatcher.upkeep_recordFailure now command.key command.handle _ true
  · exact dispatcher.upkeep_recordFailure now command.key command.handle _ false

theorem upkeep_onAck (ack : CommandAck) : Upkeep dispatcher [] (dispatcher.onAck now ack).1 := by
  rw [onAck]
  split
  · exact .refl dispatcher
  · rename_i key _
    simp only
    split
    · exact dispatcher.upkeep_recordSuccess now key ack.handle
    · exact dispatcher.upkeep_recordFailure now key ack.handle _ _

theorem upkeep_observe (lattice : LatticeId) (component : ComponentId) (host : Option HostId) :
    Upkeep dispatcher [] (dispatcher.observe lattice component host).1 :=
  (UpkeepStep.mark dispatcher lattice component host).upkeep.trans (upkeep_retireAll _ _)

theorem upkeep_beginSweep : Upkeep dispatcher [] (dispatcher.beginSweep now).1 :=
  ((dispatcher.upkeep_retireAll _).trans (upkeep_timeOutAll _ now _)).trans (upkeep_retireAll _ _)

/-- A sweep that comes to a command on its list offers it once more if it has waited long enough. -/
theorem reenter?_eq_some_iff {next : Dispatcher} {start : Moment} {key : IdempotencyKey}
    {command : Command} :
    dispatcher.reenter? start now key = some (next, command) ↔
      ∃ entry, dispatcher.entries.find? key = some entry ∧ isDue start.elapsed entry = true ∧
        next =
          { dispatcher with
            entries := dispatcher.entries.insert key
              { entry with
                command := entry.command.again now.wall
                state := .awaitingAck (start.elapsed + dispatcher.policy.ackTimeout) } } ∧
        command = entry.command.again now.wall := by
  simp only [reenter?, Option.bind_eq_bind, Option.bind_eq_some_iff, Option.pure_def,
    Option.some.injEq, Prod.mk.injEq]
  constructor
  · rintro ⟨entry, found, _, due, rfl, rfl⟩
    exact ⟨entry, found, by simpa using due, rfl, rfl⟩
  · rintro ⟨entry, found, due, rfl, rfl⟩
    exact ⟨entry, found, (), by simpa using due, rfl, rfl⟩

theorem upkeep_reenter? {dispatcher next : Dispatcher} {start now : Moment} {key : IdempotencyKey}
    {command : Command} (reentered : dispatcher.reenter? start now key = some (next, command)) :
    Upkeep dispatcher [command] next := by
  rcases (reenter?_eq_some_iff ..).mp reentered with ⟨entry, found, due, rfl, rfl⟩
  cases state : entry.state with
  | backoff retryAt => exact (UpkeepStep.resend found state now.wall _).upkeep
  | awaitingAck deadline => simp [isDue, state] at due
  | settled expiresAt => simp [isDue, state] at due
  | failed expiresAt report => simp [isDue, state] at due

/-- The commands that a sweep sends again come after those that it has offered before. -/
theorem upkeep_resendSlowly (slow : SlowTransport) (offered : List Command) (report : ReapReport)
    (keys : List IdempotencyKey) :
    ∃ more, (dispatcher.resendSlowly now slow offered report keys).offered =
        offered.reverse ++ more ∧
      Upkeep dispatcher more
        (dispatcher.resendSlowly now slow offered report keys).dispatcher := by
  induction keys generalizing dispatcher offered report with
  | nil => exact ⟨[], by simp [resendSlowly], .refl dispatcher⟩
  | cons key keys ih =>
      rw [resendSlowly]
      split
      · exact ih dispatcher offered report
      · rename_i next command reentered
        have resent := upkeep_reenter? reentered
        have concluded := next.upkeep_conclude (slow.answeredAt key) command (slow.result command)
        split
        · rename_i last problem answered
          rw [answered] at concluded
          exact ⟨[command], by simp, resent.trans concluded⟩
        · rename_i last outcome answered
          rw [answered] at concluded
          rcases ih last (command :: offered) (noteOutcome (noteRetry report command) outcome) with
            ⟨more, offers, upkeep⟩
          refine ⟨command :: more, by simp [offers], ?_⟩
          exact (resent.trans concluded).trans upkeep

theorem upkeep_reapSlowly (slow : SlowTransport) (order : SweepOrder) :
    Upkeep dispatcher (dispatcher.reapSlowly now slow order).offered
      (dispatcher.reapSlowly now slow order).dispatcher := by
  rcases upkeep_resendSlowly (dispatcher.beginSweep now).1 now slow []
    (dispatcher.beginSweep now).2.1 (order.arrange (dispatcher.beginSweep now).2.2) with
    ⟨more, offers, upkeep⟩
  rw [List.reverse_nil, List.nil_append] at offers
  have swept := (dispatcher.upkeep_beginSweep now).trans upkeep
  rw [List.nil_append, ← offers] at swept
  exact swept

theorem upkeep_reapTimeouts (transport : Command → SendResult) :
    Upkeep dispatcher (dispatcher.reapTimeouts now transport).offered
      (dispatcher.reapTimeouts now transport).dispatcher := by
  rw [← reapSlowly_atOnce]
  exact dispatcher.upkeep_reapSlowly now _ _

end Calls

/--
What may be asked of a dispatcher, and what it finds when it does it. A call that waits for the
transport may also be made in parts, with anything else in between.
-/
inductive Move where
  | dispatch (now : Moment) (lattice : LatticeId) (app : AppName) (action : RequiredAction)
      (result : SendResult)
  | acknowledge (now : Moment) (ack : CommandAck)
  | sweep (now : Moment) (transport : Command → SendResult)
  | observe (lattice : LatticeId) (component : ComponentId) (host : Option HostId)
  /-- The part of a dispatch before the transport answers. -/
  | propose (now : Moment) (lattice : LatticeId) (app : AppName) (action : RequiredAction)
  /-- The part of a sweep before the first command is offered. -/
  | beginSweep (now : Moment)
  /-- The part of a sweep that was begun at an earlier moment in which one command is offered. -/
  | reenter (start now : Moment) (key : IdempotencyKey)
  /-- The transport answers. -/
  | conclude (now : Moment) (command : Command) (result : SendResult)

/-- The dispatcher after a move, and the commands offered to the transport in it, in order. -/
def perform (dispatcher : Dispatcher) : Move → Dispatcher × List Command
  | .dispatch now lattice app action result =>
    let outcome := dispatcher.dispatch now lattice app action result
    (outcome.dispatcher, outcome.offered)
  | .acknowledge now ack => ((dispatcher.onAck now ack).1, [])
  | .sweep now transport =>
    let outcome := dispatcher.reapTimeouts now transport
    (outcome.dispatcher, outcome.offered)
  | .observe lattice component host => ((dispatcher.observe lattice component host).1, [])
  | .propose now lattice app action =>
    match dispatcher.propose now lattice app action with
    | (dispatcher, .offer command) => (dispatcher, [command])
    | (dispatcher, _) => (dispatcher, [])
  | .beginSweep now => ((dispatcher.beginSweep now).1, [])
  | .reenter start now key =>
    match dispatcher.reenter? start now key with
    | some (dispatcher, command) => (dispatcher, [command])
    | none => (dispatcher, [])
  | .conclude now command result => ((dispatcher.conclude now command result).1, [])

/-- The dispatcher after some moves, and the commands offered in them, in order. -/
def performAll (dispatcher : Dispatcher) : List Move → Dispatcher × List Command
  | [] => (dispatcher, [])
  | move :: moves =>
    let (next, first) := dispatcher.perform move
    let (last, rest) := next.performAll moves
    (last, first ++ rest)

/-- A new command is entered while no command with its key is under way. -/
structure Entering (dispatcher : Dispatcher) (now : Moment) (command : Command) : Prop where
  handle : command.handle = dispatcher.nextHandle
  attempt : command.attempt = 1
  key : command.key = command.action.idempotencyKey command.lattice
  free : ∀ entry, dispatcher.entries.find? command.key = some entry → entry.isInFlight = false

/-- A proposal enters a new command, or leaves everything as it is. -/
theorem propose_cases (dispatcher : Dispatcher) (now : Moment) (lattice : LatticeId)
    (app : AppName) (action : RequiredAction) :
    (∃ command, dispatcher.Entering now command ∧
      dispatcher.propose now lattice app action =
        (dispatcher.enter now command, .offer command)) ∨
    ∃ handle, dispatcher.propose now lattice app action = (dispatcher, .merge handle) ∨
      dispatcher.propose now lattice app action = (dispatcher, .suppress handle) := by
  rw [propose]
  split
  · rename_i obstacle obstructed
    right
    rcases Option.bind_eq_some_iff.mp obstructed with ⟨entry, _, stands⟩
    refine ⟨entry.command.handle, ?_⟩
    cases state : entry.state with
    | awaitingAck deadline => simp_all [obstacle?]
    | backoff retryAt => simp_all [obstacle?]
    | settled expiresAt => simp_all [obstacle?]
    | failed expiresAt report => simp_all [obstacle?]
  · rename_i unobstructed
    left
    refine ⟨_, ⟨rfl, rfl, rfl, ?_⟩, rfl⟩
    intro entry found
    have notStanding : obstacle? now action entry = none := by
      simpa [Command.new, found] using Option.bind_eq_none_iff.mp unobstructed entry found
    cases state : entry.state with
    | awaitingAck deadline => simp [obstacle?, state] at notStanding
    | backoff retryAt => simp [obstacle?, state] at notStanding
    | settled expiresAt => simp [Entry.isInFlight, EntryState.isInFlight, state]
    | failed expiresAt report => simp [Entry.isInFlight, EntryState.isInFlight, state]

theorem propose_policy (dispatcher : Dispatcher) (now : Moment) (lattice : LatticeId)
    (app : AppName) (action : RequiredAction) :
    (dispatcher.propose now lattice app action).1.policy = dispatcher.policy := by
  rcases dispatcher.propose_cases now lattice app action with
    ⟨command, _, proposed⟩ | ⟨handle, proposed | proposed⟩
  · rw [proposed]
    rfl
  · rw [proposed]
  · rw [proposed]

/-- A move is upkeep, or it enters a new command, and upkeep that offers none follows. -/
theorem perform_cases (dispatcher : Dispatcher) (move : Move) :
    Upkeep dispatcher (dispatcher.perform move).2 (dispatcher.perform move).1 ∨
    ∃ now command, dispatcher.Entering now command ∧ (dispatcher.perform move).2 = [command] ∧
      Upkeep (dispatcher.enter now command) [] (dispatcher.perform move).1 := by
  cases move with
  | dispatch now lattice app action result =>
      rcases dispatcher.propose_cases now lattice app action with
        ⟨command, entering, proposed⟩ | ⟨handle, proposed | proposed⟩
      · right
        refine ⟨now, command, entering, by simp [perform, dispatch, proposed], ?_⟩
        simpa [perform, dispatch, proposed] using
          upkeep_conclude (dispatcher.enter now command) now command result
      · left
        simpa [perform, dispatch, proposed] using Upkeep.refl dispatcher
      · left
        simpa [perform, dispatch, proposed] using Upkeep.refl dispatcher
  | acknowledge now ack => exact Or.inl (dispatcher.upkeep_onAck now ack)
  | sweep now transport => exact Or.inl (dispatcher.upkeep_reapTimeouts now transport)
  | observe lattice component host =>
      exact Or.inl (dispatcher.upkeep_observe lattice component host)
  | propose now lattice app action =>
      rcases dispatcher.propose_cases now lattice app action with
        ⟨command, entering, proposed⟩ | ⟨handle, proposed | proposed⟩
      · right
        refine ⟨now, command, entering, by simp [perform, proposed], ?_⟩
        simpa [perform, proposed] using Upkeep.refl (dispatcher.enter now command)
      · left
        simpa [perform, proposed] using Upkeep.refl dispatcher
      · left
        simpa [perform, proposed] using Upkeep.refl dispatcher
  | beginSweep now => exact Or.inl (dispatcher.upkeep_beginSweep now)
  | reenter start now key =>
      left
      simp only [perform]
      split
      · rename_i reentered
        exact upkeep_reenter? reentered
      · exact .refl dispatcher
  | conclude now command result => exact Or.inl (dispatcher.upkeep_conclude now command result)

end Dispatcher

end Reconciler
