import Reconciler.Dispatch.Dispatcher

/-!
# Sweeps over commands

A sweep looks for commands whose time is up. Those that wait in vain for an acknowledgement have
failed once more, those that waited long enough are sent again, and finished ones are forgotten.
Commands with an observed effect are dropped instead of being sent again.
-/

namespace Reconciler

/-- What a sweep has done. -/
structure ReapReport where
  /-- The commands sent again, and the number of the attempt. -/
  retried : List (IdempotencyKey × UInt32)
  /-- The commands that have failed for good. -/
  failed : List FailureReport
  /-- How many finished commands were forgotten. -/
  expired : Nat
  /-- How many commands were dropped because their effect was observed. -/
  observed : Nat
deriving DecidableEq, Inhabited

namespace Dispatcher

/-- What to say of a command whose acknowledgement fails to come. -/
def timeoutReason : String :=
  "acknowledgement timed out"

/-- Whether a command waits in vain for its acknowledgement. -/
def isOverdue (now : Nat) (entry : Entry) : Bool :=
  match entry.state with
  | .awaitingAck deadline => deadline ≤ now
  | _ => false

/-- Whether a command has waited long enough to be sent again. -/
def isDue (now : Nat) (entry : Entry) : Bool :=
  match entry.state with
  | .backoff retryAt => retryAt ≤ now
  | _ => false

/-- Whether a finished command is to be forgotten. -/
def isExpired (now : Nat) (entry : Entry) : Bool :=
  match entry.state with
  | .settled expiresAt => expiresAt ≤ now
  | .failed expiresAt _ => expiresAt ≤ now
  | _ => false

/-- Takes note that acknowledgements have not come in time; the answer is what failed for good. -/
def timeOutAll (dispatcher : Dispatcher) (now : Moment) :
    List (IdempotencyKey × CommandHandle) → Dispatcher × List FailureReport
  | [] => (dispatcher, [])
  | (key, handle) :: rest =>
    let (dispatcher, outcome) := dispatcher.recordFailure now key handle timeoutReason true
    let (dispatcher, failed) := dispatcher.timeOutAll now rest
    match outcome with
    | .failed report => (dispatcher, report :: failed)
    | _ => (dispatcher, failed)

/-- The first part of a sweep, in which nothing is sent: what it has done, and the keys of the
commands that are to be sent again. -/
def beginSweep (dispatcher : Dispatcher) (now : Moment) :
    Dispatcher × ReapReport × List IdempotencyKey :=
  let retired := dispatcher.select fun entry =>
    entry.observed && (isOverdue now.elapsed entry || isDue now.elapsed entry)
  let overdue := dispatcher.select fun entry => !entry.observed && isOverdue now.elapsed entry
  let due := dispatcher.select fun entry => !entry.observed && isDue now.elapsed entry
  let expired := dispatcher.select (isExpired now.elapsed)
  let (dispatcher, observed) := dispatcher.retireAll retired
  let (dispatcher, failed) := dispatcher.timeOutAll now overdue
  let (dispatcher, forgotten) := dispatcher.retireAll expired
  (dispatcher, ⟨[], failed, forgotten, observed⟩, due.map Prod.fst)

/-- Enters a further attempt for a command, if it is still to be sent again at a time. -/
def reenter? (dispatcher : Dispatcher) (start now : Moment) (key : IdempotencyKey) :
    Option (Dispatcher × Command) := do
  let entry ← dispatcher.entries.find? key
  guard (isDue start.elapsed entry)
  let command :=
    { entry.command with attempt := entry.command.attempt + 1, issuedAt := now.wall }
  let entry : Entry :=
    { entry with
      command := command
      state := .awaitingAck (start.elapsed + dispatcher.policy.ackTimeout) }
  return ({ dispatcher with entries := dispatcher.entries.insert key entry }, command)

/-- The report with one more command sent again. -/
def noteRetry (report : ReapReport) (command : Command) : ReapReport :=
  { report with retried := report.retried ++ [(command.key, command.attempt)] }

/-- The report with what the transport's answer has done to a command. -/
def noteOutcome (report : ReapReport) : Option AckOutcome → ReapReport
  | some (.failed failure) => { report with failed := report.failed ++ [failure] }
  | _ => report

/--
The second part of a sweep, where the transport answers at once: sends commands again. The commands
offered so far are given last first.
-/
def resendAll (dispatcher : Dispatcher) (now : Moment) (transport : Command → SendResult)
    (offered : List Command) (report : ReapReport) : List IdempotencyKey → Outcome ReapReport
  | [] => ⟨dispatcher, offered.reverse, .ok report⟩
  | key :: keys =>
    match dispatcher.reenter? now now key with
    | none => dispatcher.resendAll now transport offered report keys
    | some (dispatcher, command) =>
      match dispatcher.conclude now command (transport command) with
      | (dispatcher, .error problem) =>
        ⟨dispatcher, (command :: offered).reverse, .error problem⟩
      | (dispatcher, .ok outcome) =>
        dispatcher.resendAll now transport (command :: offered)
          (noteOutcome (noteRetry report command) outcome) keys

/-- A whole sweep, where the transport answers at once. -/
def reapTimeouts (dispatcher : Dispatcher) (now : Moment) (transport : Command → SendResult) :
    Outcome ReapReport :=
  let (dispatcher, report, due) := dispatcher.beginSweep now
  dispatcher.resendAll now transport [] report due

end Dispatcher

end Reconciler
