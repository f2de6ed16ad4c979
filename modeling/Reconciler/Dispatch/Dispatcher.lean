import Reconciler.Dispatch.Error
import Reconciler.Dispatch.RetryPolicy

/-!
# Tracking of commands

A dispatcher follows every command from the moment it is sent. A command waits for its
acknowledgement; if that fails to come or is a failure, it waits to be sent again, until it has been
sent too often. Repeats of an action fall together under its key: while a command is under way, they
merge into it, and for a while after it has succeeded they are suppressed if it has done what they
ask.

What hosts report counts more than acknowledgements: once something happened where a command was to
have its effect, the command is not sent again.

Offering a command to the transport takes two steps, since the transport may take its time: the
dispatcher first enters the command, and later learns what came of it.
-/

namespace Reconciler

/-- How far a command has come. -/
inductive EntryState where
  | awaitingAck (deadline : Nat)
  | backoff (retryAt : Nat)
  | settled (expiresAt : Nat)
  | failed (expiresAt : Nat) (report : FailureReport)
deriving DecidableEq, Inhabited, Repr

/-- Whether a command is still under way. -/
def EntryState.isInFlight : EntryState → Bool
  | awaitingAck _ => true
  | backoff _ => true
  | settled _ => false
  | failed .. => false

/-- A command and how far it has come. -/
structure Entry where
  command : Command
  state : EntryState
  /-- Whether something has happened where the command is to have its effect. -/
  observed : Bool
deriving DecidableEq, Inhabited

namespace Entry

/-- Whether the command is still under way. -/
def isInFlight (entry : Entry) : Bool :=
  entry.state.isInFlight

/-- Whether the command is to have its effect on a component, and on a host if one is given. -/
def concerns (entry : Entry) (lattice : LatticeId) (component : ComponentId)
    (host : Option HostId) : Bool :=
  entry.command.lattice == lattice && entry.command.component == component &&
    match host, entry.command.action.host? with
    | some host, some target => host == target
    | _, _ => true

end Entry

/-- Whether an action that was done has done what another one of the same key asks for. -/
def RequiredAction.covers (done next : RequiredAction) : Bool :=
  match done, next with
  | .stopInstances _ _ stopped, .stopInstances _ _ instances =>
    instances.all fun id => stopped.contains id
  | _, _ => true

/-- What became of an action that was to be dispatched. -/
inductive DispatchOutcome where
  | sent (handle : CommandHandle)
  /-- A command under way has the same key. -/
  | merged (handle : CommandHandle)
  /-- A command that has succeeded lately has done it already. -/
  | suppressed (handle : CommandHandle)
deriving DecidableEq, Inhabited, Repr

namespace DispatchOutcome

/-- The command that an action has become, or that stands in its way. -/
def handle : DispatchOutcome → CommandHandle
  | sent handle => handle
  | merged handle => handle
  | suppressed handle => handle

/-- Whether a new command was sent. -/
def isSent : DispatchOutcome → Bool
  | sent _ => true
  | _ => false

end DispatchOutcome

/-- What an acknowledgement or a failure has done to a command. -/
inductive AckOutcome where
  | settled
  /-- The attempt that has failed, and the wait before the next one in milliseconds. -/
  | retrying (attempt : UInt32) (retryIn : Nat)
  | failed (report : FailureReport)
  /-- The command is finished already, or has made way for another. -/
  | stale
deriving DecidableEq, Inhabited, Repr

/-- What becomes of an action before anything is sent. -/
inductive Admission where
  /-- A new command is to be offered to the transport. -/
  | offer (command : Command)
  | merge (handle : CommandHandle)
  | suppress (handle : CommandHandle)
deriving DecidableEq, Inhabited

/-- The commands of an engine. -/
structure Dispatcher where
  policy : RetryPolicy
  /-- What sets the handles of this dispatcher apart from those of others. -/
  source : Nat
  /-- The number of handles given out so far. -/
  minted : Nat
  entries : SortedMap IdempotencyKey Entry
  handles : SortedMap CommandHandle IdempotencyKey
deriving DecidableEq, Inhabited

namespace Dispatcher

/-- A dispatcher without commands. -/
def new (policy : RetryPolicy) (source : Nat) : Dispatcher :=
  ⟨policy, source, 0, ∅, ∅⟩

/-- The handle that is given out next. -/
def nextHandle (dispatcher : Dispatcher) : CommandHandle :=
  .ofNumbers dispatcher.source dispatcher.minted

/-- Enters a new command in place of whatever has its key, under a new handle. -/
def enter (dispatcher : Dispatcher) (now : Moment) (command : Command) : Dispatcher :=
  let handles :=
    match dispatcher.entries.find? command.key with
    | some entry => dispatcher.handles.erase entry.command.handle
    | none => dispatcher.handles
  { dispatcher with
    minted := dispatcher.minted + 1
    entries := dispatcher.entries.insert command.key
      ⟨command, .awaitingAck (now.elapsed + dispatcher.policy.ackTimeout), false⟩
    handles := handles.insert command.handle command.key }

/-- Whether an entry stands in the way of an action, and how. -/
def obstacle? (now : Moment) (action : RequiredAction) (entry : Entry) : Option Admission :=
  match entry.state with
  | .awaitingAck _ => some (.merge entry.command.handle)
  | .backoff _ => some (.merge entry.command.handle)
  | .settled expiresAt =>
    if now.elapsed < expiresAt && entry.command.action.covers action then
      some (.suppress entry.command.handle)
    else none
  | .failed .. => none

/-- Enters a command for an action, unless one with its key stands in the way. -/
def propose (dispatcher : Dispatcher) (now : Moment) (lattice : LatticeId) (app : AppName)
    (action : RequiredAction) : Dispatcher × Admission :=
  match (dispatcher.entries.find? (action.idempotencyKey lattice)).bind (obstacle? now action) with
  | some obstacle => (dispatcher, obstacle)
  | none =>
    let command := Command.new dispatcher.nextHandle now.wall lattice app action
    (dispatcher.enter now command, .offer command)

/-- Drops the entry under a key, if it is still that of a handle; the answer is whether it was. -/
def retire (dispatcher : Dispatcher) (key : IdempotencyKey) (handle : CommandHandle) :
    Dispatcher × Bool :=
  match dispatcher.entries.find? key with
  | some entry =>
    if entry.command.handle = handle then
      ({ dispatcher with
          entries := dispatcher.entries.erase key
          handles := dispatcher.handles.erase handle },
        true)
    else (dispatcher, false)
  | none => (dispatcher, false)

/-- The dispatcher with the state of an entry changed. -/
def withState (dispatcher : Dispatcher) (key : IdempotencyKey) (entry : Entry)
    (state : EntryState) : Dispatcher :=
  { dispatcher with entries := dispatcher.entries.insert key { entry with state := state } }

/-- The report that a command has failed for good. -/
def failureReport (now : Moment) (key : IdempotencyKey) (entry : Entry) (reason : String) :
    FailureReport :=
  ⟨key, entry.command.component, entry.command.attempt, reason, now.wall⟩

/-- Takes note that a command under way has failed; it may be sent again if that is any use. -/
def recordFailure (dispatcher : Dispatcher) (now : Moment) (key : IdempotencyKey)
    (handle : CommandHandle) (reason : String) (retryable : Bool) : Dispatcher × AckOutcome :=
  match dispatcher.entries.find? key with
  | none => (dispatcher, .stale)
  | some entry =>
    if entry.command.handle ≠ handle ∨ !entry.isInFlight then (dispatcher, .stale)
    else
      let attempt := entry.command.attempt
      if retryable && !dispatcher.policy.isExhausted attempt then
        let wait := dispatcher.policy.backoff attempt
        (dispatcher.withState key entry (.backoff (now.elapsed + wait)), .retrying attempt wait)
      else
        let report := failureReport now key entry reason
        (dispatcher.withState key entry
            (.failed (now.elapsed + dispatcher.policy.entryTtl) report),
          .failed report)

/-- Takes note of what the transport has answered to a command. -/
def conclude (dispatcher : Dispatcher) (now : Moment) (command : Command) (result : SendResult) :
    Dispatcher × Except DispatchError (Option AckOutcome) :=
  match result with
  | none => (dispatcher, .ok none)
  | some (.transient reason) =>
    let (dispatcher, outcome) :=
      dispatcher.recordFailure now command.key command.handle reason true
    (dispatcher, .ok (some outcome))
  | some (.fatal reason) =>
    let problem := SinkError.fatal reason
    let (dispatcher, _) :=
      dispatcher.recordFailure now command.key command.handle problem.message false
    (dispatcher, .error (.transport problem))

/-- What a call has led to: the commands that were offered to the transport, and its answer. -/
structure Outcome (α : Type) where
  dispatcher : Dispatcher
  offered : List Command
  answer : Except DispatchError α

/-- Dispatches an action, where the transport answers at once. -/
def dispatch (dispatcher : Dispatcher) (now : Moment) (lattice : LatticeId) (app : AppName)
    (action : RequiredAction) (result : SendResult) : Outcome DispatchOutcome :=
  match dispatcher.propose now lattice app action with
  | (dispatcher, .merge handle) => ⟨dispatcher, [], .ok (.merged handle)⟩
  | (dispatcher, .suppress handle) => ⟨dispatcher, [], .ok (.suppressed handle)⟩
  | (dispatcher, .offer command) =>
    let (dispatcher, concluded) := dispatcher.conclude now command result
    ⟨dispatcher, [command], concluded.map fun _ => .sent command.handle⟩

/-- Takes note that a command has succeeded. -/
def recordSuccess (dispatcher : Dispatcher) (now : Moment) (key : IdempotencyKey)
    (handle : CommandHandle) : Dispatcher × AckOutcome :=
  match dispatcher.entries.find? key with
  | none => (dispatcher, .stale)
  | some entry =>
    if entry.command.handle ≠ handle then (dispatcher, .stale)
    else if entry.observed then ((dispatcher.retire key handle).1, .settled)
    else
      (dispatcher.withState key entry (.settled (now.elapsed + dispatcher.policy.entryTtl)),
        .settled)

/-- Takes an acknowledgement. -/
def onAck (dispatcher : Dispatcher) (now : Moment) (ack : CommandAck) :
    Dispatcher × Except DispatchError AckOutcome :=
  match dispatcher.handles.find? ack.handle with
  | none => (dispatcher, .error (.unknownHandle ack.handle))
  | some key =>
    let (dispatcher, outcome) :=
      match ack.result with
      | .success => dispatcher.recordSuccess now key ack.handle
      | .failure retryable reason =>
        dispatcher.recordFailure now key ack.handle reason retryable
    (dispatcher, .ok outcome)

/-- Marks the commands under way that something has happened to, by key and entry. -/
def markObserved (lattice : LatticeId) (component : ComponentId) (host : Option HostId)
    (entry : Entry) : Entry :=
  if entry.isInFlight && entry.concerns lattice component host then { entry with observed := true }
  else entry

/-- Drops entries that are still those of the given handles; the answer is how many. -/
def retireAll (dispatcher : Dispatcher) :
    List (IdempotencyKey × CommandHandle) → Dispatcher × Nat
  | [] => (dispatcher, 0)
  | (key, handle) :: rest =>
    let (dispatcher, dropped) := dispatcher.retire key handle
    let (dispatcher, count) := dispatcher.retireAll rest
    (dispatcher, count + if dropped then 1 else 0)

/-- The entries that pass a test, by key and handle. -/
def select (dispatcher : Dispatcher) (test : Entry → Bool) :
    List (IdempotencyKey × CommandHandle) :=
  (dispatcher.entries.filter fun _ entry => test entry).entries.map fun (key, entry) =>
    (key, entry.command.handle)

/--
Takes note that something has happened to a component, on a host if one is given. Finished commands
for it are dropped, and the answer is how many.
-/
def observe (dispatcher : Dispatcher) (lattice : LatticeId) (component : ComponentId)
    (host : Option HostId) : Dispatcher × Nat :=
  let finished := dispatcher.select fun entry =>
    !entry.isInFlight && entry.concerns lattice component host
  let entries := dispatcher.entries.mapValues fun _ => markObserved lattice component host
  ({ dispatcher with entries := entries } : Dispatcher).retireAll finished

/-- The number of commands under way. -/
def inFlightCount (dispatcher : Dispatcher) : Nat :=
  (dispatcher.entries.filter fun _ entry => entry.isInFlight).size

/-- Whether a command is for an application in a lattice. -/
def isFor (lattice : LatticeId) (app : AppName) (entry : Entry) : Bool :=
  entry.command.lattice == lattice && entry.command.app == app

/-- The number of commands under way for an application in a lattice. -/
def inFlightFor (dispatcher : Dispatcher) (lattice : LatticeId) (app : AppName) : Nat :=
  (dispatcher.entries.filter fun _ entry => entry.isInFlight && isFor lattice app entry).size

/-- The commands for an application in a lattice that have failed for good, in key order. -/
def failuresFor (dispatcher : Dispatcher) (lattice : LatticeId) (app : AppName) :
    List FailureReport :=
  dispatcher.entries.values.filterMap fun entry =>
    match entry.state with
    | .failed _ report => if isFor lattice app entry then some report else none
    | _ => none

/-- Whether a command with a key is under way. -/
def isInFlight (dispatcher : Dispatcher) (key : IdempotencyKey) : Bool :=
  (dispatcher.entries.find? key).any Entry.isInFlight

/-- The command with a handle. -/
def command? (dispatcher : Dispatcher) (handle : CommandHandle) : Option Command := do
  let key ← dispatcher.handles.find? handle
  let entry ← dispatcher.entries.find? key
  return entry.command

end Dispatcher

end Reconciler
