import Reconciler.Wire.Command

/-!
# Labels of handles

The handles of commands say nothing to a reader, and differ from one run to the next. What is shown
of a run names them `c1`, `c2` and so on, in the order in which they are first shown.
-/

namespace Reconciler

open JsonForm

/-- The handles that have been shown, in the order of their labels. -/
structure HandleLabels where
  shown : List CommandHandle
deriving DecidableEq, Inhabited

namespace HandleLabels

/-- The label with a place. -/
def labelAt (place : Nat) : String :=
  "c" ++ toString (place + 1)

/-- The label of a handle, which is a new one if the handle has not been shown. -/
def label (labels : HandleLabels) (handle : CommandHandle) : HandleLabels × String :=
  match labels.shown.findIdx? (· == handle) with
  | some place => (labels, labelAt place)
  | none => (⟨labels.shown ++ [handle]⟩, labelAt labels.shown.length)

/-- A handle that no command has. -/
def unknown : CommandHandle :=
  ⟨⟨UInt64.size * UInt64.size - 1⟩⟩

/-- The handle with a label, or one that no command has. -/
def handle (labels : HandleLabels) (label : String) : CommandHandle :=
  ((labels.shown.zipIdx.find? fun (_, place) => labelAt place == label).map Prod.fst).getD unknown

/-- The form of an error with a handle in its text named by its label. -/
def rename (handle : CommandHandle) (label : String) : Json → Json
  | .object members =>
    .object (members.map fun (name, value) =>
      match value with
      | .string text => (name, .string (text.replace handle.uuid.write label))
      | value => (name, value))
  | value => value

/-- What is shown of a command. -/
def command (labels : HandleLabels) (command : Command) : HandleLabels × List (String × Json) :=
  let (labels, label) := labels.label command.handle
  (labels, [("handle", .string label), ("key", write command.key),
    ("lattice", write command.lattice), ("app", write command.app),
    ("attempt", write command.attempt), ("annotations", write command.annotations),
    ("action", write command.action)])

/-- Commands sent for the first time by lattice and application, then others by key and attempt. -/
def sortSent (sent : List Command) : List Command :=
  let first := sent.filter fun command => command.attempt == 1
  let again := sent.filter fun command => command.attempt != 1
  let notAfter (first second : Command) : Bool :=
    ((compare first.lattice second.lattice).then (compare first.app second.app)) != .gt
  let notLater (first second : Command) : Bool :=
    ((compare first.key second.key).then (compare first.attempt second.attempt)) != .gt
  first.mergeSort notAfter ++ again.mergeSort notLater

/-- What is shown of commands, and before that the same more of each of them. -/
def commands (labels : HandleLabels) (more : List (String × Json)) :
    List Command → HandleLabels × List Json
  | [] => (labels, [])
  | first :: rest =>
    let (labels, fields) := labels.command first
    let (labels, shown) := labels.commands more rest
    (labels, .object (more ++ fields) :: shown)

/-- What is shown of commands that a transport has taken. -/
def sent (labels : HandleLabels) (more : List (String × Json)) (taken : List Command) :
    HandleLabels × List Json :=
  labels.commands more (sortSent taken)

end HandleLabels

end Reconciler
