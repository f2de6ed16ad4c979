import Reconciler.SortedMap

/-!
# Hash rings

The peers of a ring share out names among themselves: every peer has some points on a circle of
numbers, and a name belongs to the peer whose point is the first at or after the hash of the name.
All peers that agree on the list of peers agree on who owns a name.
-/

namespace Reconciler

/-- Points on a circle of numbers, and the peer at each. -/
structure HashRing where
  points : SortedMap UInt64 String
deriving DecidableEq, Inhabited

namespace HashRing

/-- The text whose hash is a point of a peer. -/
def pointName (peer : String) (node : Nat) : String :=
  peer ++ "#" ++ toString node

/-- The points of peers, each with its peer, in the order in which they are put. -/
def pointList (hash : String → UInt64) (peers : List String) (nodes : Nat) :
    List (UInt64 × String) :=
  peers.flatMap fun peer =>
    (List.range (max nodes 1)).map fun node => (hash (pointName peer node), peer)

/-- The ring of peers with a number of points each, at least one; of two peers at one point the
later one has it. -/
def ofPeers (hash : String → UInt64) (peers : List String) (nodes : Nat) : HashRing :=
  ⟨.ofList (pointList hash peers nodes)⟩

/-- The peer at the first point from a number on, around the circle. -/
def ownerAt? (ring : HashRing) (number : UInt64) : Option String :=
  let next := ring.points.entries.find? fun point => number ≤ point.1
  (next.or ring.points.entries.head?).map Prod.snd

/-- The peer that a name belongs to. -/
def owner? (hash : String → UInt64) (ring : HashRing) (name : String) : Option String :=
  ring.ownerAt? (hash name)

end HashRing

end Reconciler
