import Reconciler.Partition.Strategy
import Reconciler.Proofs.Keys
import Reconciler.Proofs.SortedMap

/-!
# Who owns a name on a ring

The way on a circle of numbers from one of them to another is their difference, which wraps around.
A name belongs to the peer whose point has the shortest way from the hash of the name:
`HashRing.ownerAt?_eq_some_iff`. What the peers agree on follows from what points a ring has, and
which of them a peer that leaves takes away.
-/

namespace Reconciler

namespace HashRing

section Circle

variable {number first second : UInt64}

/-- Of two numbers at or after a third one, the smaller one has the shorter way from there. -/
theorem sub_le_sub_of_le (before : number ≤ first) (order : first ≤ second) :
    first - number ≤ second - number := by
  rw [UInt64.le_iff_toNat_le] at *
  rw [UInt64.toNat_sub, UInt64.toNat_sub]
  have bound := second.toNat_lt
  omega

/-- From a number, all numbers up to the greatest one come before the way begins anew at zero. -/
theorem sub_le_sub_of_lt (before : number ≤ first) (after : second < number) :
    first - number ≤ second - number := by
  rw [UInt64.le_iff_toNat_le] at *
  rw [UInt64.lt_iff_toNat_lt] at after
  rw [UInt64.toNat_sub, UInt64.toNat_sub]
  have bound := first.toNat_lt
  have numberBound := number.toNat_lt
  omega

/-- Of two numbers that come after the way has begun anew, the smaller one comes first. -/
theorem sub_le_sub_of_lt_of_lt (order : first ≤ second) (after : second < number) :
    first - number ≤ second - number := by
  rw [UInt64.le_iff_toNat_le] at *
  rw [UInt64.lt_iff_toNat_lt] at after
  rw [UInt64.toNat_sub, UInt64.toNat_sub]
  have numberBound := number.toNat_lt
  omega

theorem eq_of_sub_eq (same : first - number = second - number) : first = second := by
  have toNats := congrArg UInt64.toNat same
  rw [UInt64.toNat_sub, UInt64.toNat_sub] at toNats
  have firstBound := first.toNat_lt
  have secondBound := second.toNat_lt
  have numberBound := number.toNat_lt
  apply UInt64.toNat_inj.mp
  omega

end Circle

variable {hash : String → UInt64} {ring : HashRing} {peers others : List String} {nodes : Nat}
  {number point : UInt64} {peer other leaving : String}

/-- Whether a peer has the point of a ring with the shortest way from a number. -/
def IsNext (ring : HashRing) (number : UInt64) (peer : String) : Prop :=
  ∃ point, ring.points.find? point = some peer ∧
    ∀ other, ring.points.contains other = true → point - number ≤ other - number

theorem IsNext.unique (isNext : ring.IsNext number peer) (otherIsNext : ring.IsNext number other) :
    peer = other := by
  rcases isNext with ⟨point, found, shortest⟩
  rcases otherIsNext with ⟨otherPoint, otherFound, otherShortest⟩
  have before : point - number ≤ otherPoint - number :=
    shortest otherPoint (by rw [SortedMap.contains_eq_isSome, otherFound, Option.isSome_some])
  have after : otherPoint - number ≤ point - number :=
    otherShortest point (by rw [SortedMap.contains_eq_isSome, found, Option.isSome_some])
  obtain rfl := eq_of_sub_eq (UInt64.le_antisymm before after)
  exact Option.some.inj (found.symm.trans otherFound)

theorem lt_of_entries_eq {entries rest : List (UInt64 × String)} {entry : UInt64 × String}
    (split : ring.points.entries = entries ++ entry :: rest) {later : UInt64 × String}
    (member : later ∈ rest) : entry.1 < later.1 := by
  have sorted := ring.points.sorted
  rw [split, List.pairwise_append] at sorted
  exact Std.compare_eq_lt.mp (List.rel_of_pairwise_cons sorted.2.1 member)

theorem isNext_of_ownerAt? (owner : ring.ownerAt? number = some peer) :
    ring.IsNext number peer := by
  rcases Option.map_eq_some_iff.mp owner with ⟨⟨point, _⟩, found, rfl⟩
  rcases Option.or_eq_some_iff.mp found with ahead | ⟨noneAhead, isHead⟩
  · rcases List.find?_eq_some_iff_append.mp ahead with ⟨reached, entries, rest, split, passed⟩
    have reached : number ≤ point := by simpa using reached
    refine ⟨point, SortedMap.mem_entries_iff.mp (split ▸ by simp), fun other contained => ?_⟩
    rcases Option.isSome_iff_exists.mp contained with ⟨value, otherFound⟩
    have member := SortedMap.mem_entries_iff.mpr otherFound
    rw [split, List.mem_append, List.mem_cons] at member
    rcases member with earlier | same | later
    · exact sub_le_sub_of_lt reached (by simpa using passed _ earlier)
    · exact (Prod.mk.inj same).1 ▸ UInt64.le_refl _
    · exact sub_le_sub_of_le reached (UInt64.le_of_lt (lt_of_entries_eq split later))
  · -- Nothing is ahead, so that all points come after the way has begun anew.
    rcases List.head?_eq_some_iff.mp isHead with ⟨rest, split⟩
    refine ⟨point, SortedMap.mem_entries_iff.mp (split ▸ by simp), fun other contained => ?_⟩
    rcases Option.isSome_iff_exists.mp contained with ⟨value, otherFound⟩
    have member := SortedMap.mem_entries_iff.mpr otherFound
    have behind : other < number := by simpa using List.find?_eq_none.mp noneAhead _ member
    rw [split, List.mem_cons] at member
    rcases member with same | later
    · exact (Prod.mk.inj same).1 ▸ UInt64.le_refl _
    · have atHead : ring.points.entries = [] ++ (point, _) :: rest := split
      exact sub_le_sub_of_lt_of_lt (UInt64.le_of_lt (lt_of_entries_eq atHead later)) behind

theorem exists_ownerAt? (contained : ring.points.contains point = true) (number : UInt64) :
    ∃ peer, ring.ownerAt? number = some peer := by
  rcases Option.isSome_iff_exists.mp contained with ⟨peer, found⟩
  have member := SortedMap.mem_entries_iff.mpr found
  rw [ownerAt?]
  cases entries : ring.points.entries with
  | nil => cases entries ▸ member
  | cons head rest =>
      cases List.find? (fun point => decide (number ≤ point.1)) (head :: rest) with
      | none => exact ⟨_, rfl⟩
      | some entry => exact ⟨_, rfl⟩

/-- The owner at a number is the peer with the next point from there. -/
theorem ownerAt?_eq_some_iff : ring.ownerAt? number = some peer ↔ ring.IsNext number peer := by
  refine ⟨isNext_of_ownerAt?, fun isNext => ?_⟩
  rcases isNext with ⟨point, found, shortest⟩
  have contained : ring.points.contains point = true := by
    rw [SortedMap.contains_eq_isSome, found, Option.isSome_some]
  rcases exists_ownerAt? contained number with ⟨owner, owned⟩
  rw [owned, (isNext_of_ownerAt? owned).unique ⟨point, found, shortest⟩]

section Points

theorem mem_pointList_iff : (point, peer) ∈ pointList hash peers nodes ↔
    peer ∈ peers ∧ ∃ node < max nodes 1, hash (pointName peer node) = point := by
  simp only [pointList, List.mem_flatMap, List.mem_map, List.mem_range, Prod.mk.injEq]
  constructor
  · rintro ⟨_, member, node, bound, here, rfl⟩
    exact ⟨member, node, bound, here⟩
  · rintro ⟨member, node, bound, here⟩
    exact ⟨peer, member, node, bound, here, rfl⟩

theorem of_find?_ofPeers (found : (ofPeers hash peers nodes).points.find? point = some peer) :
    peer ∈ peers ∧ ∃ node < max nodes 1, hash (pointName peer node) = point :=
  mem_pointList_iff.mp (SortedMap.mem_of_find?_ofList found)

theorem contains_ofPeers_iff : (ofPeers hash peers nodes).points.contains point = true ↔
    ∃ peer ∈ peers, ∃ node < max nodes 1, hash (pointName peer node) = point := by
  constructor
  · intro contained
    rcases Option.isSome_iff_exists.mp contained with ⟨peer, found⟩
    exact ⟨peer, of_find?_ofPeers found⟩
  · rintro ⟨peer, member⟩
    exact SortedMap.contains_ofList (mem_pointList_iff.mpr member)

/-- Every name has an owner among the peers, if there are any. -/
theorem exists_owner? (hash : String → UInt64) (someone : peers ≠ []) (nodes : Nat)
    (name : String) : ∃ peer ∈ peers, (ofPeers hash peers nodes).owner? hash name = some peer := by
  rcases List.exists_mem_of_ne_nil peers someone with ⟨first, member⟩
  have contained : (ofPeers hash peers nodes).points.contains (hash (pointName first 0)) = true :=
    contains_ofPeers_iff.mpr ⟨first, member, 0, by omega, rfl⟩
  rcases exists_ownerAt? contained (hash name) with ⟨peer, owned⟩
  rcases isNext_of_ownerAt? owned with ⟨_, found, _⟩
  exact ⟨peer, (of_find?_ofPeers found).1, owned⟩

end Points

section Membership

/-- No name of a node has the number sign that comes before it. -/
theorem mark_notMem_toString (node : Nat) : '#' ∉ (toString node).toList := by
  intro member
  rw [Nat.toString_eq_repr, Nat.toList_repr] at member
  have digit := Nat.isDigit_of_mem_toDigits (by decide) (by decide) member
  exact absurd digit (by decide)

theorem eq_of_pointName_eq {node otherNode : Nat}
    (same : pointName peer node = pointName other otherNode) : peer = other := by
  rcases (Text.joined_eq_iff (by decide)).mp same with agree | ⟨_, _, after⟩ | ⟨_, _, after⟩
  · exact agree.1
  · refine absurd ?_ (mark_notMem_toString otherNode)
    simp [after]
  · refine absurd ?_ (mark_notMem_toString node)
    simp [after]

/-- Whether the names of all points have different hashes. -/
def IsCollisionFree (hash : String → UInt64) (peers : List String) (nodes : Nat) : Prop :=
  ∀ first ∈ peers, ∀ second ∈ peers, ∀ node < max nodes 1, ∀ otherNode < max nodes 1,
    hash (pointName first node) = hash (pointName second otherNode) →
      pointName first node = pointName second otherNode

/-- Without collisions every peer has all its points. -/
theorem IsCollisionFree.find?_ofPeers_iff (free : IsCollisionFree hash peers nodes) :
    (ofPeers hash peers nodes).points.find? point = some peer ↔
      peer ∈ peers ∧ ∃ node < max nodes 1, hash (pointName peer node) = point := by
  refine ⟨of_find?_ofPeers, ?_⟩
  rintro ⟨member, node, bound, here⟩
  have contained := contains_ofPeers_iff.mpr ⟨peer, member, node, bound, here⟩
  rcases Option.isSome_iff_exists.mp contained with ⟨other, found⟩
  rcases of_find?_ofPeers found with ⟨otherMember, otherNode, otherBound, alsoHere⟩
  rw [found, eq_of_pointName_eq (free other otherMember peer member otherNode otherBound node bound
    (alsoHere.trans here.symm))]

/-- Without collisions the order of the peers and their repetitions make no difference. -/
theorem IsCollisionFree.ofPeers_eq (free : IsCollisionFree hash peers nodes)
    (same : ∀ peer, peer ∈ others ↔ peer ∈ peers) :
    ofPeers hash others nodes = ofPeers hash peers nodes := by
  have otherFree : IsCollisionFree hash others nodes :=
    fun first isFirst second isSecond =>
      free first ((same first).mp isFirst) second ((same second).mp isSecond)
  apply congrArg HashRing.mk
  apply SortedMap.ext_find?
  intro point
  apply Option.ext
  intro peer
  exact otherFree.find?_ofPeers_iff.trans ((and_congr_left' (same peer)).trans
    free.find?_ofPeers_iff.symm)

end Membership

section Leaving

theorem pointList_cons (hash : String → UInt64) (peer : String) (peers : List String)
    (nodes : Nat) : pointList hash (peer :: peers) nodes =
      ((List.range (max nodes 1)).map fun node => (hash (pointName peer node), peer)) ++
        pointList hash peers nodes :=
  List.flatMap_cons

/-- A peer that leaves takes all its points with it, and no others. -/
theorem pointList_filter (hash : String → UInt64) (peers : List String) (nodes : Nat)
    (leaving : String) : pointList hash (peers.filter (· != leaving)) nodes =
      (pointList hash peers nodes).filter fun entry => entry.2 != leaving := by
  induction peers with
  | nil => rfl
  | cons peer peers ih =>
      rw [pointList_cons, List.filter_append, ← ih]
      by_cases leaves : peer = leaving
      · have taken : ((List.range (max nodes 1)).map fun node =>
            (hash (pointName peer node), peer)).filter (fun entry => entry.2 != leaving) = [] := by
          simp [List.filter_map, Function.comp_def, leaves]
        rw [taken, List.filter_cons_of_neg (by simp [leaves]), List.nil_append]
      · have stays : (peer != leaving) = true := bne_iff_ne.mpr leaves
        have kept : ((List.range (max nodes 1)).map fun node =>
            (hash (pointName peer node), peer)).filter (fun entry => entry.2 != leaving) =
            (List.range (max nodes 1)).map fun node => (hash (pointName peer node), peer) := by
          simp [List.filter_map, Function.comp_def, stays]
        rw [kept, List.filter_cons, if_pos stays, pointList_cons]

/-- A peer that stays keeps the points that it has. -/
theorem find?_ofPeers_filter (found : (ofPeers hash peers nodes).points.find? point = some peer)
    (stays : peer ≠ leaving) :
    (ofPeers hash (peers.filter (· != leaving)) nodes).points.find? point = some peer := by
  rw [ofPeers, SortedMap.find?_ofList, Option.map_eq_some_iff] at found
  rcases found with ⟨entry, last, rfl⟩
  rcases List.find?_eq_some_iff_append.mp last with ⟨here, later, earlier, split, others⟩
  rw [ofPeers, SortedMap.find?_ofList, pointList_filter, ← List.filter_reverse, split,
    List.filter_append, List.filter_cons_of_pos (by simpa using stays)]
  refine Option.map_eq_some_iff.mpr ⟨entry, ?_, rfl⟩
  refine List.find?_eq_some_iff_append.mpr ⟨here, _, _, rfl, fun former member => ?_⟩
  exact others former (List.mem_filter.mp member).1

theorem contains_of_contains_filter
    (contained : (ofPeers hash (peers.filter (· != leaving)) nodes).points.contains point = true) :
    (ofPeers hash peers nodes).points.contains point = true := by
  rcases contains_ofPeers_iff.mp contained with ⟨peer, member, here⟩
  exact contains_ofPeers_iff.mpr ⟨peer, (List.mem_filter.mp member).1, here⟩

/-- A peer that stays keeps the names that it owns. -/
theorem owner?_filter {name : String}
    (owner : (ofPeers hash peers nodes).owner? hash name = some peer) (stays : peer ≠ leaving) :
    (ofPeers hash (peers.filter (· != leaving)) nodes).owner? hash name = some peer := by
  rcases ownerAt?_eq_some_iff.mp owner with ⟨point, found, shortest⟩
  refine ownerAt?_eq_some_iff.mpr ⟨point, find?_ofPeers_filter found stays, fun other remains => ?_⟩
  exact shortest other (contains_of_contains_filter remains)

end Leaving

end HashRing

namespace RingMember

variable {hash : String → UInt64} {peers : List String} {nodes : Nat} {app : AppName}

theorem new?_eq_ok_iff {self : String} {member : RingMember} :
    new? hash self peers nodes = .ok member ↔
      self ∈ peers ∧ member = ⟨self, .ofPeers hash peers nodes⟩ := by
  rw [new?]
  split
  · rename_i isPeer
    simp [List.contains_iff_mem.mp isPeer, eq_comm]
  · rename_i isNoPeer
    simpa using fun isPeer => absurd (List.contains_iff_mem.mpr isPeer) isNoPeer

theorem owner_eq {self owner : String}
    (owned : (HashRing.ofPeers hash peers nodes).owner? hash app.text = some owner) :
    RingMember.owner hash ⟨self, .ofPeers hash peers nodes⟩ app = owner := by
  rw [RingMember.owner, owned, Option.getD_some]

/--
All peers name one of them as the owner of an application, and nobody else says that it is its own;
without collisions those with the same peers in another order, or repeated, name the same one.
-/
theorem one_owner (hash : String → UInt64) {peers : List String} (someone : peers ≠ [])
    (nodes : Nat) (app : AppName) :
    ∃ owner ∈ peers,
      (∀ self ∈ peers, ∃ member, new? hash self peers nodes = .ok member ∧
        member.owner hash app = owner) ∧
      (∀ self, (∃ member, new? hash self peers nodes = .ok member ∧
        member.owns hash app = true) ↔ self = owner) ∧
      (HashRing.IsCollisionFree hash peers nodes → ∀ others : List String,
        (∀ peer, peer ∈ others ↔ peer ∈ peers) → ∀ self ∈ others,
          ∃ member, new? hash self others nodes = .ok member ∧
            member.owner hash app = owner) := by
  rcases HashRing.exists_owner? hash someone nodes app.text with ⟨owner, isPeer, owned⟩
  refine ⟨owner, isPeer, ?_, ?_, ?_⟩
  · intro self member
    exact ⟨_, new?_eq_ok_iff.mpr ⟨member, rfl⟩, owner_eq owned⟩
  · intro self
    constructor
    · rintro ⟨member, isNew, owns⟩
      obtain ⟨_, rfl⟩ := new?_eq_ok_iff.mp isNew
      rw [RingMember.owns, owner_eq owned, beq_iff_eq] at owns
      exact owns.symm
    · rintro rfl
      exact ⟨_, new?_eq_ok_iff.mpr ⟨isPeer, rfl⟩, by rw [owns, owner_eq owned, beq_self_eq_true]⟩
  · intro free others same self member
    refine ⟨_, new?_eq_ok_iff.mpr ⟨member, rfl⟩, ?_⟩
    rw [free.ofPeers_eq same]
    exact owner_eq owned

/--
Two peers with a point each agree that an application belongs to the second one, and so they do when
that one is listed twice.
-/
theorem one_owner_of_repeated_peer :
    let hash (name : String) : UInt64 := name.length.toUInt64
    ["a", "bb"] ≠ [] ∧ HashRing.IsCollisionFree hash ["a", "bb"] 1 ∧
      ∃ owner ∈ ["a", "bb"], owner = "bb" ∧
        (∀ self ∈ ["a", "bb"], ∃ member, new? hash self ["a", "bb"] 1 = .ok member ∧
          member.owner hash ⟨"shop"⟩ = owner) ∧
        (∀ self, (∃ member, new? hash self ["a", "bb"] 1 = .ok member ∧
          member.owns hash ⟨"shop"⟩ = true) ↔ self = owner) ∧
        ∀ self ∈ ["bb", "a", "bb"], ∃ member, new? hash self ["bb", "a", "bb"] 1 = .ok member ∧
          member.owner hash ⟨"shop"⟩ = owner := by
  intro hash
  have free : HashRing.IsCollisionFree hash ["a", "bb"] 1 := by
    unfold HashRing.IsCollisionFree
    decide +kernel
  rcases one_owner hash (show ["a", "bb"] ≠ [] by decide) 1 ⟨"shop"⟩ with
    ⟨owner, isPeer, agreed, alone, others⟩
  rcases agreed "a" (by decide) with ⟨member, isNew, named⟩
  obtain ⟨_, rfl⟩ := new?_eq_ok_iff.mp isNew
  have isSecond : owner = "bb" := named.symm.trans (by decide +kernel)
  exact ⟨by decide, free, owner, isPeer, isSecond, agreed, alone,
    others free ["bb", "a", "bb"] (by simp [or_comm])⟩

/--
When a peer leaves, an application stays with its owner unless that is the peer that leaves. The
other peers are members of both rings.
-/
theorem owner_of_leaving (hash : String → UInt64) (peers : List String) (nodes : Nat)
    (leaving : String) {self : String} (isPeer : self ∈ peers) (stays : self ≠ leaving) :
    ∃ before after, new? hash self peers nodes = .ok before ∧
      new? hash self (peers.filter (· != leaving)) nodes = .ok after ∧
      ∀ app, before.owner hash app ≠ leaving → after.owner hash app = before.owner hash app := by
  have remains : self ∈ peers.filter (· != leaving) :=
    List.mem_filter.mpr ⟨isPeer, by simpa using stays⟩
  refine ⟨_, _, new?_eq_ok_iff.mpr ⟨isPeer, rfl⟩, new?_eq_ok_iff.mpr ⟨remains, rfl⟩, ?_⟩
  intro app notLeaving
  rcases HashRing.exists_owner? hash (List.ne_nil_of_mem isPeer) nodes app.text with
    ⟨owner, _, owned⟩
  rw [owner_eq owned] at notLeaving ⊢
  exact owner_eq (HashRing.owner?_filter owned notLeaving)

/--
A name past the last point belongs to the peer with the first one, and stays there when another
peer leaves that has taken a point from a third one.
-/
theorem owner_of_leaving_of_shared_point :
    let hash (name : String) : UInt64 := name.length.toUInt64
    "aa" ∈ ["aa", "b", "cc"] ∧ "aa" ≠ "cc" ∧
      ∃ before after, new? hash "aa" ["aa", "b", "cc"] 1 = .ok before ∧
        new? hash "aa" (["aa", "b", "cc"].filter (· != "cc")) 1 = .ok after ∧
        before.owner hash ⟨"blog"⟩ = "cc" ∧ before.owner hash ⟨"office"⟩ ≠ "cc" ∧
        after.owner hash ⟨"office"⟩ = before.owner hash ⟨"office"⟩ := by
  intro hash
  rcases owner_of_leaving hash ["aa", "b", "cc"] 1 "cc" (show "aa" ∈ ["aa", "b", "cc"] by decide)
    (by decide) with
    ⟨before, after, isBefore, isAfter, keeps⟩
  obtain ⟨_, rfl⟩ := new?_eq_ok_iff.mp isBefore
  have others : RingMember.owner hash ⟨"aa", .ofPeers hash ["aa", "b", "cc"] 1⟩ ⟨"office"⟩ ≠ "cc" :=
    by decide +kernel
  exact ⟨by decide, by decide, _, after, isBefore, isAfter, by decide +kernel, others,
    keeps ⟨"office"⟩ others⟩

end RingMember

end Reconciler
