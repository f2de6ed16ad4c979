import Reconciler.Action
import Reconciler.Uuid

/-!
# Commands

A command is a required action on its way to a lattice, under a handle by which the lattice
acknowledges it.
-/

namespace Reconciler

/-- The handle of a command. -/
structure CommandHandle where
  uuid : Uuid
deriving DecidableEq, Inhabited, Repr

namespace CommandHandle

instance : Ord CommandHandle :=
  rankOrd fun handle => handle.uuid.number

instance : Std.TransOrd CommandHandle :=
  transOrd_rankOrd _

instance : Std.LawfulEqOrd CommandHandle :=
  lawfulEqOrd_rankOrd _ fun first second same => by
    rcases first with ⟨⟨_⟩⟩
    rcases second with ⟨⟨_⟩⟩
    exact congrArg _ (congrArg _ same)

/-- The number of handles that one source hands out before they run into those of the next. -/
def perSource : Nat :=
  UInt64.size

/-- A handle by the number of its source and its number among the handles of that source. -/
def ofNumbers (source number : Nat) : CommandHandle :=
  ⟨⟨source * perSource + number⟩⟩

/-- A handle as messages name it. -/
def label (handle : CommandHandle) : String :=
  "cmd:" ++ handle.uuid.write

end CommandHandle

/-- A required action addressed to a lattice. -/
structure Command where
  handle : CommandHandle
  key : IdempotencyKey
  lattice : LatticeId
  app : AppName
  /-- One for the first time that the command is sent, and one more each further time. -/
  attempt : UInt32
  issuedAt : Timestamp
  /-- What the host attaches to the instances that it starts. -/
  annotations : Labels
  action : RequiredAction
deriving DecidableEq, Inhabited

namespace Command

/-- The command for an action, not yet sent before. -/
def new (handle : CommandHandle) (issuedAt : Timestamp) (lattice : LatticeId) (app : AppName)
    (action : RequiredAction) : Command where
  handle := handle
  key := action.idempotencyKey lattice
  lattice := lattice
  app := app
  attempt := 1
  issuedAt := issuedAt
  annotations := .forApp app
  action := action

/-- The component that a command is for. -/
def component (command : Command) : ComponentId :=
  command.action.component

end Command

/-- What a lattice says about a command. -/
inductive AckResult where
  | success
  | failure (retryable : Bool) (reason : String)
deriving DecidableEq, Inhabited, Repr

/-- An acknowledgement of a command. -/
structure CommandAck where
  handle : CommandHandle
  key : IdempotencyKey
  result : AckResult
deriving DecidableEq, Inhabited, Repr

namespace CommandAck

/-- The acknowledgement that a command has succeeded. -/
def success (command : Command) : CommandAck :=
  ⟨command.handle, command.key, .success⟩

/-- The acknowledgement that a command has failed. -/
def failure (command : Command) (retryable : Bool) (reason : String) : CommandAck :=
  ⟨command.handle, command.key, .failure retryable reason⟩

end CommandAck

/-- A command that has failed for good. -/
structure FailureReport where
  key : IdempotencyKey
  component : ComponentId
  attempts : UInt32
  reason : String
  failedAt : Timestamp
deriving DecidableEq, Inhabited, Repr

end Reconciler
