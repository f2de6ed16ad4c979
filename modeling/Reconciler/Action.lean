import Reconciler.Observed.Event

/-!
# Required actions

What has to be done to bring a lattice closer to what the manifests say.
-/

namespace Reconciler

/-- Something to be done in a lattice. -/
inductive RequiredAction where
  /-- The selector holds the labels for which the host was chosen. -/
  | startInstances (component : ComponentId) (componentKind : ComponentKind) (imageRef : String)
      (host : HostId) (selector : Labels) (count : UInt32)
  /-- The oldest instance comes first. -/
  | stopInstances (component : ComponentId) (host : HostId) (instances : List InstanceId)
  | addLink (link : ActiveLink)
  | removeLink (key : LinkKey)
deriving DecidableEq, Inhabited

/-- The kinds of actions. -/
inductive ActionKind where
  | start
  | stop
  | addLink
  | removeLink
deriving DecidableEq, Inhabited, Repr

namespace ActionKind

/-- The name of a kind, as it appears in keys. -/
def name : ActionKind → String
  | start => "start"
  | stop => "stop"
  | addLink => "add_link"
  | removeLink => "remove_link"

/-- Whether no later round of reconciliation can take an action of the kind back. -/
def isDestructive : ActionKind → Bool
  | stop => true
  | removeLink => true
  | start => false
  | addLink => false

end ActionKind

namespace RequiredAction

/-- The kind of an action. -/
def kind : RequiredAction → ActionKind
  | startInstances .. => .start
  | stopInstances .. => .stop
  | addLink _ => .addLink
  | removeLink _ => .removeLink

/-- The component that an action is for; for a link, the one that it leads from. -/
def component : RequiredAction → ComponentId
  | startInstances component .. => component
  | stopInstances component .. => component
  | addLink link => link.key.source
  | removeLink key => key.source

/-- The host that an action happens on, if it happens on one. -/
def host? : RequiredAction → Option HostId
  | startInstances _ _ _ host _ _ => some host
  | stopInstances _ host _ => some host
  | addLink _ => none
  | removeLink _ => none

/-- What an action is aimed at: a host, or a link. -/
def target : RequiredAction → String
  | startInstances _ _ _ host _ _ => host.text
  | stopInstances _ host _ => host.text
  | addLink link => link.key.target
  | removeLink key => key.target

/-- The key under which repeats of an action fall together. -/
def idempotencyKey (action : RequiredAction) (lattice : LatticeId) : IdempotencyKey :=
  .derive lattice action.component action.kind.name action.target

/-- The number of instances that an action starts or stops. -/
def instanceDelta : RequiredAction → UInt32
  | startInstances _ _ _ _ _ count => count
  | stopInstances _ _ instances => instances.length.toUInt32
  | addLink _ => 0
  | removeLink _ => 0

end RequiredAction

end Reconciler
