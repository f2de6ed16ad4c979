import Reconciler.Digest.Sha256
import Reconciler.Identifier
import Reconciler.Partition.HashRing

/-!
# Partition strategies

Engines that work side by side split the applications among themselves: one engine has them all, or
a hash ring decides, or the assignment is given from outside.
-/

namespace Reconciler

/-- One of the peers of a hash ring. -/
structure RingMember where
  self : String
  ring : HashRing
deriving DecidableEq, Inhabited

namespace RingMember

/-- What to say of an engine that is not a peer of its own ring. -/
def problem (self : String) : String :=
  "engine " ++ self ++ " is not among the partition peers"

/-- A peer of the ring of some peers, if it is one of them. -/
def new? (hash : String → UInt64) (self : String) (peers : List String) (nodes : Nat) :
    Except String RingMember :=
  if peers.contains self then .ok ⟨self, .ofPeers hash peers nodes⟩ else .error (problem self)

/-- The peer that an application belongs to. -/
def owner (hash : String → UInt64) (member : RingMember) (app : AppName) : String :=
  (member.ring.owner? hash app.text).getD member.self

/-- Whether an application belongs to this peer. -/
def owns (hash : String → UInt64) (member : RingMember) (app : AppName) : Bool :=
  member.owner hash app == member.self

end RingMember

/-- Applications that are assigned from outside. -/
structure Assignment where
  apps : SortedMap AppName Unit
deriving DecidableEq, Inhabited

namespace Assignment

/-- The assignment of a list of applications. -/
def ofList (apps : List AppName) : Assignment :=
  ⟨.ofList (apps.map (·, ()))⟩

/-- Whether an application is assigned. -/
def owns (assignment : Assignment) (app : AppName) : Bool :=
  assignment.apps.contains app

/-- The assignment with one more application. -/
def assign (assignment : Assignment) (app : AppName) : Assignment :=
  ⟨assignment.apps.insert app ()⟩

/-- The assignment without an application. -/
def revoke (assignment : Assignment) (app : AppName) : Assignment :=
  ⟨assignment.apps.erase app⟩

/-- The number of assigned applications. -/
def size (assignment : Assignment) : Nat :=
  assignment.apps.size

end Assignment

/-- How an engine knows which applications are its own. -/
inductive Partition where
  /-- All of them are. -/
  | everything
  | ring (member : RingMember)
  | assigned (assignment : Assignment)
deriving DecidableEq, Inhabited

namespace Partition

/-- The hash that places points and applications on rings. -/
def ringHash (name : String) : UInt64 :=
  Sha256.leading name

/-- Whether an application is the engine's own. -/
def owns : Partition → AppName → Bool
  | everything, _ => true
  | ring member, app => member.owns ringHash app
  | assigned assignment, app => assignment.owns app

end Partition

end Reconciler
