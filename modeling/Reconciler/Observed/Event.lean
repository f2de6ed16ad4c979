import Reconciler.Manifest.Basic
import Reconciler.Time.Timestamp

/-!
# Lifecycle events

Hosts report what happens on them. Each host numbers its events, so that repeats and events that
arrive too late can be told from new ones.
-/

namespace Reconciler

/-- The identity of a link in its lattice. -/
structure LinkKey where
  source : ComponentId
  name : String
  nameSpace : String
  package : String
deriving DecidableEq, Inhabited, Repr

namespace LinkKey

/-- What orders links: the source first, then the name, the namespace and the package. -/
def rank (key : LinkKey) : List String :=
  [key.source.text, key.name, key.nameSpace, key.package]

instance : Ord LinkKey :=
  rankOrd rank

instance : Std.TransOrd LinkKey :=
  transOrd_rankOrd rank

instance : Std.LawfulEqOrd LinkKey :=
  lawfulEqOrd_rankOrd rank fun first second same => by
    rcases first with ⟨⟨_⟩, _, _, _⟩
    rcases second with ⟨⟨_⟩, _, _, _⟩
    simp_all [rank]

/-- A link as messages name it. -/
def label (key : LinkKey) : String :=
  key.source.text ++ ":" ++ key.name ++ ":" ++ key.nameSpace ++ "/" ++ key.package

/-- The part of an idempotency key that names a link of a known source. -/
def target (key : LinkKey) : String :=
  key.name ++ ":" ++ key.nameSpace ++ "/" ++ key.package

end LinkKey

/-- A link as it stands in a lattice. -/
structure ActiveLink where
  key : LinkKey
  target : String
  interfaces : List String
  sourceConfig : Labels
  /-- The application that the link was put for, if it was put for one. -/
  owner : Option AppName
deriving DecidableEq, Inhabited

/-- Whether two links connect the same things in the same way, whoever owns them. -/
def ActiveLink.sameWiring (first second : ActiveLink) : Bool :=
  first.key == second.key && first.target == second.target &&
    first.interfaces == second.interfaces && first.sourceConfig == second.sourceConfig

/-- How an instance is doing. -/
inductive InstanceStatus where
  /-- A provider that has not been reported healthy yet. -/
  | pending
  | running
  | failed
deriving DecidableEq, Inhabited, Repr

/-- What may happen on a host. -/
inductive LatticeEventKind where
  /-- The boot epoch grows with every start of the host's process. -/
  | hostStarted (labels : Labels) (bootEpoch : Option UInt64)
  | hostHeartbeat (labels : Labels)
  | hostStopped
  | instanceStarted (component : ComponentId) (componentKind : ComponentKind) (imageRef : String)
      (instanceId : InstanceId) (annotations : Labels)
  | instanceStopped (component : ComponentId) (instanceId : InstanceId)
  /-- The health of all instances of a provider on the host. -/
  | providerHealth (component : ComponentId) (healthy : Bool)
  | linkSet (link : ActiveLink)
  | linkDeleted (key : LinkKey)
deriving DecidableEq, Inhabited

/-- Something that happened on a host of a lattice. -/
structure LatticeEvent where
  lattice : LatticeId
  host : HostId
  sequence : UInt64
  occurredAt : Timestamp
  kind : LatticeEventKind
deriving DecidableEq, Inhabited

/-- The name of a kind of events. -/
def LatticeEventKind.name : LatticeEventKind → String
  | hostStarted .. => "host_started"
  | hostHeartbeat .. => "host_heartbeat"
  | hostStopped => "host_stopped"
  | instanceStarted .. => "instance_started"
  | instanceStopped .. => "instance_stopped"
  | providerHealth .. => "provider_health"
  | linkSet .. => "link_set"
  | linkDeleted .. => "link_deleted"

end Reconciler
