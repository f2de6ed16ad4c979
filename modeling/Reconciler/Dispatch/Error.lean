import Reconciler.Dispatch.Command

/-!
# Errors of dispatch

Why a command could not be sent, or an acknowledgement not be taken.
-/

namespace Reconciler

/-- Why a transport has not taken a command. -/
inductive SinkError where
  /-- The command may be taken if it is sent again. -/
  | transient (reason : String)
  /-- The transport is gone; no command can be sent. -/
  | fatal (reason : String)
deriving DecidableEq, Inhabited, Repr

/-- The text that describes an error of a transport. -/
def SinkError.message : SinkError → String
  | transient reason => "Transient transport failure: " ++ reason
  | fatal reason => "Transport unavailable: " ++ reason

/-- Why a dispatcher has not done what it was asked for. -/
inductive DispatchError where
  | unknownHandle (handle : CommandHandle)
  | transport (problem : SinkError)
deriving DecidableEq, Inhabited, Repr

namespace DispatchError

/-- The text that describes an error. -/
def message : DispatchError → String
  | unknownHandle handle => "Unknown command handle: " ++ handle.label
  | transport problem => "Command transport failed: " ++ problem.message

/-- Whether an engine cannot go on after an error. -/
def isFatal : DispatchError → Bool
  | transport (.fatal _) => true
  | _ => false

end DispatchError

/-- What a transport answers when a command is offered to it: nothing, or why it is not taken. -/
abbrev SendResult :=
  Option SinkError

end Reconciler
