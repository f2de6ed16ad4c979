import Reconciler.Proofs.Fleet.Releases
import Reconciler.Proofs.Partition.Owners

/-!
# How engines split the deployments

An engine that has rebalanced in peace has actors for all deployments of its own applications, and
for no others. It takes up its own deployments at once. What it releases after that are the actors
that it was not to have when it was asked: if the split changes meanwhile, or if a release that was
begun before it changed is still under way, actors may be missing or too many in the end.
-/

namespace Reconciler

/-- Every actor at work is for an own application, and every own deployment has its actor. -/
structure Session.IsSettled (session : Session) : Prop where
  own : ∀ key, session.mans key = true → session.engine.owns key.app = true
  manned : ∀ app record, session.backend.store.deployment? app = some record →
    session.engine.owns app = true → session.mans ⟨record.lattice, app⟩ = true

/-- Whether an act asks for nothing that could disturb a member, whatever its applications are. -/
def Act.isCalm : Act → Bool
  | ask _ .shutdown => false
  | ask _ request => request.deployed?.isNone && !request.splits
  | _ => true

namespace World

variable {world : World} {act : Act} {acts : List Act} {index position : Nat}
  {session next : Session}

/--
An act leaves a member in peace: it does not ask the member to change its applications or to shut
down, and it has nobody else on the same backend deploy an application that is the member's too.
-/
structure LeavesInPeace (world : World) (index : Nat) (act : Act) : Prop where
  steady : ∀ request, act = .ask index request → request.splits = false ∧ request ≠ .shutdown
  apart : ∀ member request app, act = .ask member request → request.deployed? = some app →
    member ≠ index → world.fleet.sharesBackend member index = true →
      ∀ other session, world.fleet.session? member = some other → other.engine.owns app = true →
        world.fleet.session? index = some session → session.engine.owns app = false

/-- All acts of a run leave a member in peace. -/
def Peaceful (world : World) (index : Nat) (acts : List Act) : Prop :=
  world.Throughout (fun world => world.LeavesInPeace index) acts

/-- All that a member is still to do leaves the actors of its own applications where they are. -/
structure IsUnburdened (world : World) (index : Nat) (session : Session) : Prop where
  errands : ∀ errand ∈ world.errands, errand.member = index →
    Chore.Harmless session.engine.owns errand.chores
  loops : session.LoopsHarmless session.engine.owns

/-- A member has filled its posts, and in an errand it releases the actors of others. -/
structure IsSettling (world : World) (index position : Nat) (session : Session) : Prop
    extends world.IsUnburdened index session where
  manned : ∀ app key, session.backend.post? app = some key → session.engine.owns app = true →
    session.mans key = true
  releases : ∃ chores, world.errands[position]? = some ⟨index, chores⟩ ∧
    (∀ chore ∈ chores, chore.isRelease = true) ∧
    ∀ key, session.mans key = true → session.engine.owns key.app = false →
      ∃ chore ∈ chores, key ∈ chore.released

theorem LeavesInPeace.steady_of_deed? (peace : world.LeavesInPeace index act) {deed : Deed}
    (about : world.deed? act = some (index, deed)) :
    deed.splits = false ∧ deed ≠ .answer .shutdown := by
  cases deed with
  | answer request =>
      have steady := peace.steady request (eq_ask_of_deed? about)
      exact ⟨steady.1, fun same => steady.2 (Deed.answer.inj same)⟩
  | _ => exact ⟨rfl, fun same => by cases same⟩

/-- What a chore that is about to be done takes off the roster is for somebody else. -/
theorem IsUnburdened.foreign_of_stopped? (unburdened : world.IsUnburdened index session)
    {deed : Deed} (about : world.deed? act = some (index, deed)) {key : ActorKey}
    (stops : (session.chore? deed).bind Chore.stopped? = some key) :
    session.engine.owns key.app = false := by
  rcases Option.bind_eq_some_iff.mp stops with ⟨chore, does, stops⟩
  refine Chore.foreign_of_stopped? ?_ stops
  cases deed with
  | perform other =>
      cases does
      cases act with
      | carryOn errand =>
          rcases exists_errand_of_deed? about with ⟨first, rest, here, same⟩
          cases same
          exact unburdened.errands _ (List.mem_of_getElem? here) rfl _ List.mem_cons_self
      | _ => cases about
  | moveLoop number => exact unburdened.loops.of_chore? does
  | _ => cases does

theorem IsUnburdened.afterDeed (unburdened : world.IsUnburdened index session)
    (found : world.fleet.session? index = some session) (peace : world.LeavesInPeace index act)
    {deed : Deed} (about : world.deed? act = some (index, deed)) :
    (world.after act).IsUnburdened index (session.afterDeed deed).1 := by
  have steady := peace.steady_of_deed? about
  have same : (session.afterDeed deed).1.engine.owns = session.engine.owns :=
    funext (session.upholds_afterDeed steady.1).owns
  refine ⟨?_, ?_⟩
  · rw [same, errands_after about found]
    cases act with
    | ask member request =>
        cases about
        intro errand member own
        rcases List.mem_append.mp member with former | isNew
        · exact unburdened.errands errand former own
        · rw [List.mem_singleton.mp isNew]
          rcases ran : request.call.run session with ⟨problem | chores, later⟩
          · simp only [Session.afterDeed, ran]
            exact List.forall_mem_nil _
          · simp only [Session.afterDeed, ran]
            exact Call.harmless_request session steady.1 (fun same => steady.2 (same ▸ rfl)) chores
              later ran
    | carryOn number =>
        rcases exists_errand_of_deed? about with ⟨chore, rest, here, rfl⟩
        intro errand member own
        rcases (mem_errandsAfter_carryOn here).mp member with rfl | ⟨other, _, elsewhere⟩
        · exact session.harmless_goOn (unburdened.errands _ (List.mem_of_getElem? here) rfl) index
        · exact unburdened.errands errand (List.mem_of_getElem? elsewhere) own
    | _ => exact unburdened.errands
  · rw [same]
    exact unburdened.loops.afterDeed steady.2

/-- What a member does in peace keeps its posts filled, and the actors of others are released. -/
theorem IsSettling.afterDeed (settling : world.IsSettling index position session)
    (found : world.fleet.session? index = some session) (peace : world.LeavesInPeace index act)
    {deed : Deed} (about : world.deed? act = some (index, deed)) :
    (world.after act).IsSettling index position (session.afterDeed deed).1 := by
  have upholds := session.upholds_afterDeed (peace.steady_of_deed? about).1
  have unburdened := settling.toIsUnburdened.afterDeed found peace about
  refine { unburdened with manned := ?_, releases := ?_ }
  · intro app key posted own
    rw [upholds.owns] at own
    rcases upholds.posted app key posted with before | ⟨_, _, manned⟩
    · refine upholds.kept key (settling.manned app key before own) fun stops => ?_
      have foreign := settling.foreign_of_stopped? about stops
      rcases Backend.post?_eq_some_iff.mp before with ⟨record, _, rfl⟩
      cases foreign.symm.trans own
    · exact manned
  · rcases settling.releases with ⟨chores, here, areReleases, covered⟩
    -- Nobody is taken on for others, so whoever is still there for them was to be released already.
    have former : ∀ key, (session.afterDeed deed).1.mans key = true →
        (session.afterDeed deed).1.engine.owns key.app = false →
          ∃ chore ∈ chores, key ∈ chore.released := by
      intro key manned foreign
      rw [upholds.owns] at foreign
      rcases upholds.hired key manned with before | own
      · exact covered key before foreign
      · cases foreign.symm.trans own
    rcases getElem?_errands_after here act with
      still | ⟨chore, rest, other, isFirst, performs, otherFound, goneOn⟩
    · exact ⟨chores, still, areReleases, former⟩
    · -- The release itself goes on: what it leaves still releases whoever it has not.
      cases about.symm.trans performs
      obtain rfl := Option.some.inj (found.symm.trans otherFound)
      obtain rfl : chores = chore :: rest := isFirst
      rw [List.forall_mem_cons] at areReleases
      rcases session.release_afterDeed areReleases.1 with ⟨more, done, others, stays⟩
      rw [done] at goneOn
      refine ⟨more ++ rest, goneOn, List.forall_mem_append.mpr ⟨others, areReleases.2⟩, ?_⟩
      intro key manned foreign
      rcases former key manned foreign with ⟨releasing, member, releases⟩
      rcases List.mem_cons.mp member with rfl | isRest
      · rcases stays key releases manned with ⟨later, isLater, releases⟩
        exact ⟨later, List.mem_append_left _ isLater, releases⟩
      · exact ⟨releasing, List.mem_append_right _ isRest, releases⟩

theorem IsSettling.still (settling : world.IsSettling index position session)
    (still : ∀ deed, world.deed? act ≠ some (index, deed))
    (owns : next.engine = session.engine)
    (posted : ∀ app key, next.backend.post? app = some key → session.engine.owns app = true →
      session.backend.post? app = some key) :
    (world.after act).IsSettling index position next := by
  have mans : ∀ key, next.mans key = session.mans key := fun key => by
    rw [Session.mans, owns, ← Session.mans]
  refine ⟨⟨?_, ?_⟩, ?_, ?_⟩
  · rw [owns]
    exact fun errand member own =>
      settling.errands errand (mem_errands_of_after still member own) own
  · rw [owns]
    intro loop member
    rw [owns] at member
    exact settling.loops loop member
  · intro app key isPosted own
    rw [owns] at own
    rw [mans]
    exact settling.manned app key (posted app key isPosted own) own
  · rcases settling.releases with ⟨chores, here, areReleases, covered⟩
    rcases getElem?_errands_after here act with
      stays | ⟨chore, rest, other, isFirst, performs, _⟩
    · refine ⟨chores, stays, areReleases, fun key manned foreign => ?_⟩
      rw [mans] at manned
      rw [owns] at foreign
      exact covered key manned foreign
    · exact absurd performs (still _)

theorem IsSettling.after (settling : world.IsSettling index position session)
    (found : world.fleet.session? index = some session) (peace : world.LeavesInPeace index act)
    (shift : world.Shift act index session next) :
    (world.after act).IsSettling index position next := by
  cases shift with
  | acts about => exact settling.afterDeed found peace about
  | @follows member deed other about different otherFound shared same =>
      have still : ∀ deed, world.deed? act ≠ some (index, deed) := by
        intro deed isOwn
        cases about.symm.trans isOwn
        exact different rfl
      refine settling.still still rfl fun app key posted own => ?_
      rw [same]
      rcases other.posted_afterDeed deed posted with before | ⟨isDeployed, otherOwns⟩
      · exact before
      · -- Whoever else deploys an application of its own, it is not the member's.
        cases deed with
        | answer request =>
            have foreign := peace.apart member request app (eq_ask_of_deed? about) isDeployed
              different (Fleet.sharesBackend_of_not_hasOwn shared.1 shared.2) other session
              otherFound otherOwns found
            cases foreign.symm.trans own
        | _ => cases isDeployed
  | passes now still => exact settling.still still rfl fun _ _ posted _ => posted

theorem leavesInPeace_of_isCalm (calm : act.isCalm = true) : world.LeavesInPeace index act := by
  refine ⟨?_, ?_⟩
  · rintro request rfl
    cases request with
    | setPartition partition => cases calm
    | assign app => cases calm
    | revoke app => cases calm
    | shutdown => cases calm
    | _ => exact ⟨rfl, fun same => by cases same⟩
  · rintro member request app rfl deployed
    cases request with
    | deploy app version lattice => cases calm
    | _ => cases deployed

theorem peaceful_of_all (calm : acts.all Act.isCalm = true) : world.Peaceful index acts := by
  intro first act part
  have member : act ∈ acts := part.subset (List.mem_append_right _ (List.mem_singleton_self act))
  exact leavesInPeace_of_isCalm (List.all_eq_true.mp calm act member)

theorem IsSettling.afterAll (settling : world.IsSettling index position session)
    (found : world.fleet.session? index = some session) (peaceful : world.Peaceful index acts)
    (later : (world.afterAll acts).fleet.session? index = some next) :
    (world.afterAll acts).IsSettling index position next := by
  refine afterAll_induction (motive := fun acts next => world.Peaceful index acts →
    (world.afterAll acts).IsSettling index position next) ?_ ?_ later peaceful
  · intro same foundSame _
    obtain rfl := Option.some.inj (found.symm.trans foundSame)
    exact settling
  · intro acts act middle next middleFound ih shift peaceful
    rw [Peaceful, throughout_concat_iff] at peaceful
    rw [afterAll_concat]
    exact (ih peaceful.1).after middleFound peaceful.2 shift

/-- Nothing is left of the release, so nobody is on the roster who should not be. -/
theorem IsSettling.isSettled (settling : world.IsSettling index position session)
    (returned : world.errands[position]? = some ⟨index, []⟩) : session.IsSettled where
  own key manned := by
    rcases settling.releases with ⟨chores, here, _, covered⟩
    obtain rfl : chores = [] := by
      cases here.symm.trans returned
      rfl
    by_contra foreign
    rcases covered key manned (Bool.eq_false_of_not_eq_true foreign) with ⟨_, none, _⟩
    cases none
  manned app record recorded own :=
    settling.manned app _ (Backend.post?_eq_some_iff.mpr ⟨record, recorded, rfl⟩) own

/--
A member is asked to rebalance, and by the end of the acts that follow all that is left of that has
been done, so that the answer is given. The member is left in peace meanwhile, and has nothing else
to do by which it stops actors of its own applications.
-/
structure Rebalances (world : World) (index : Nat) (session : Session) (during : List Act) :
    Prop where
  found : world.fleet.session? index = some session
  answered : ∃ pending later, Call.rebalance.run session = (.ok pending, later)
  unburdened : world.IsUnburdened index session
  peaceful : (world.after (.ask index .rebalance)).Peaceful index during
  returned : (world.afterAll (.ask index .rebalance :: during)).errands[world.errands.length]? =
    some ⟨index, []⟩

/-- A member with no loops, and with harmless errands, is asked to rebalance at a calm time. -/
theorem rebalances_of_calm {during : List Act} (found : world.fleet.session? index = some session)
    (answered : (Call.rebalance.run session).1.toOption.isSome = true)
    (idle : session.engine.loops.isEmpty = true)
    (harmless : world.errands.all (fun errand => errand.member != index ||
      errand.chores.all (Chore.isHarmless session.engine.owns)) = true)
    (calm : during.all Act.isCalm = true)
    (returned : (world.afterAll (.ask index .rebalance :: during)).errands[world.errands.length]? =
      some ⟨index, []⟩) : world.Rebalances index session during where
  found := found
  answered := by
    rcases ran : Call.rebalance.run session with ⟨problem | pending, later⟩
    · rw [ran] at answered
      cases answered
    · exact ⟨pending, later, rfl⟩
  unburdened := by
    refine ⟨fun errand member own => ?_, ?_⟩
    · have fits := List.all_eq_true.mp harmless errand member
      rw [own, bne_self_eq_false, Bool.false_or] at fits
      exact List.all_eq_true.mp fits
    · intro loop member
      rw [List.isEmpty_iff.mp idle] at member
      cases member
  peaceful := peaceful_of_all calm
  returned := returned

/-- A member that is asked to rebalance takes up its deployments, and is left with the release. -/
theorem Rebalances.isSettling {during : List Act}
    (rebalances : world.Rebalances index session during) :
    ∃ later, (world.after (.ask index .rebalance)).fleet.session? index = some later ∧
      (world.after (.ask index .rebalance)).IsSettling index world.errands.length later := by
  have found := rebalances.found
  have about : world.deed? (.ask index .rebalance) = some (index, .answer .rebalance) := rfl
  have peace : world.LeavesInPeace index (.ask index .rebalance) := leavesInPeace_of_isCalm rfl
  have unburdened := rebalances.unburdened.afterDeed found peace about
  rcases rebalances.answered with ⟨pending, later, ran⟩
  have does : session.afterDeed (.answer .rebalance) = (later, .ok pending.chores) := by
    have called : Request.rebalance.call.run session = (.ok pending.chores, later) := by
      change (Call.rebalance >>= fun pending => pure pending.chores).run session = _
      rw [Call.run_bind, ran]
      rfl
    rw [Session.afterDeed, called]
  rcases Call.ensures_rebalance session _ _ ran with ⟨filled, changed, rfl⟩
  have later? : (world.after (.ask index .rebalance)).fleet.session? index = some later := by
    have sameTime := session.now_afterDeed (.answer .rebalance)
    rw [does] at sameTime
    rw [after_of_deed? about found, does]
    exact Fleet.session?_putSession_self found sameTime
  have left := errands_after about found
  rw [does] at left unburdened
  refine ⟨later, later?, { unburdened with manned := ?_, releases := ?_ }⟩
  · intro app key posted own
    rw [filled.backend, Backend.post?_eq_some_iff] at posted
    rcases posted with ⟨record, recorded, rfl⟩
    rw [filled.upholds.owns] at own
    exact filled.manned app record (Call.mem_ownDeployments_iff.mpr ⟨recorded, own⟩)
  · rw [left]
    refine ⟨_, List.getElem?_concat_length, List.forall_mem_singleton.mpr rfl, ?_⟩
    intro key manned foreign
    rw [Session.mans, SortedMap.contains_eq_isSome, Option.isSome_iff_exists] at manned
    rw [filled.upholds.owns] at foreign
    refine ⟨_, List.mem_singleton_self _, List.mem_filter.mpr ⟨?_, ?_⟩⟩
    · exact SortedMap.mem_keys_iff.mpr manned
    · rw [foreign, Bool.not_false]

theorem Rebalances.isSettled {during : List Act}
    (rebalances : world.Rebalances index session during)
    (later : (world.afterAll (.ask index .rebalance :: during)).fleet.session? index = some next) :
    next.IsSettled := by
  rcases rebalances.isSettling with ⟨middle, found, settling⟩
  exact (settling.afterAll found rebalances.peaceful later).isSettled rebalances.returned

/-- In a run a member has rebalanced, and has been left in peace since it was asked to. -/
def HasRebalanced (world : World) (index : Nat) (acts : List Act) : Prop :=
  ∃ before during session, acts = before ++ .ask index .rebalance :: during ∧
    (world.afterAll before).Rebalances index session during

theorem HasRebalanced.isSettled (rebalanced : world.HasRebalanced index acts)
    (found : (world.afterAll acts).fleet.session? index = some session) : session.IsSettled := by
  rcases rebalanced with ⟨before, during, former, rfl, rebalances⟩
  refine rebalances.isSettled ?_
  rwa [afterAll, List.foldl_append] at found

end World

/-- An engine that is settled has nothing to do when it rebalances. -/
theorem Session.IsSettled.rebalances {session : Session} (settled : session.IsSettled)
    (inReach : session.backend.outage = none) :
    session.afterDeed (.answer .rebalance) =
      (session, .ok [.release [] (Call.ownDeployments session).length false]) := by
  have ran := Call.run_rebalance_of_settled inReach settled.own fun app record member => by
    rw [Call.mem_ownDeployments_iff] at member
    exact settled.manned app record member.1 member.2
  have called : Request.rebalance.call.run session =
      (.ok [.release [] (Call.ownDeployments session).length false], session) := by
    change (Call.rebalance >>= fun pending => pure pending.chores).run session = _
    rw [Call.run_bind, ran]
    rfl
  rw [Session.afterDeed, called]

namespace Fleet

variable {fleet : Fleet} {peers : List String} {nodes index : Nat} {self : String}

/-- Whether the engine of a member has its applications by a ring of some peers, and which it is. -/
def IsPeer (fleet : Fleet) (peers : List String) (nodes index : Nat) (self : String) : Prop :=
  ∃ engine member, fleet.engine? index = some engine ∧ engine.partition = some (.ring member) ∧
    RingMember.new? Partition.ringHash self peers nodes = .ok member

/-- The engines of a fleet are the peers of one ring, one engine for each of them. -/
structure SharesRing (fleet : Fleet) (peers : List String) (nodes : Nat) : Prop where
  peer : ∀ index engine, fleet.engine? index = some engine →
    ∃ self, fleet.IsPeer peers nodes index self
  one : ∀ self ∈ peers, ∃! index, fleet.IsPeer peers nodes index self

theorem IsPeer.exists_engine (isPeer : fleet.IsPeer peers nodes index self) :
    ∃ engine, fleet.engine? index = some engine := by
  rcases isPeer with ⟨engine, _, found, _⟩
  exact ⟨engine, found⟩

/-- The peers of a ring, listed once each in the order of their engines, share the ring. -/
theorem sharesRing_of_map
    (partitions : fleet.members.map (fun member => member.engine.partition) =
      peers.map fun self => some (.ring ⟨self, .ofPeers Partition.ringHash peers nodes⟩))
    (nodup : peers.Nodup) : fleet.SharesRing peers nodes := by
  have at? : ∀ index : Nat, (fleet.engine? index).map Engine.partition =
      (peers[index]?).map fun self =>
        some (.ring ⟨self, .ofPeers Partition.ringHash peers nodes⟩) := by
    intro index
    rw [engine?, Option.map_map, ← List.getElem?_map, ← List.getElem?_map, ← partitions]
    rfl
  have isPeer : ∀ {index : Nat} {self : String}, peers[index]? = some self →
      fleet.IsPeer peers nodes index self := by
    intro index self here
    have known := at? index
    rw [here, Option.map_some, Option.map_eq_some_iff] at known
    rcases known with ⟨engine, found, partition⟩
    exact ⟨engine, _, found, partition,
      RingMember.new?_eq_ok_iff.mpr ⟨List.mem_of_getElem? here, rfl⟩⟩
  refine ⟨fun index engine found => ?_, fun self member => ?_⟩
  · have known := at? index
    rw [found, Option.map_some, eq_comm, Option.map_eq_some_iff] at known
    rcases known with ⟨self, here, _⟩
    exact ⟨self, isPeer here⟩
  · rcases List.mem_iff_getElem?.mp member with ⟨index, here⟩
    refine ⟨index, isPeer here, ?_⟩
    rintro other ⟨engine, isMember, found, partition, isNew⟩
    obtain ⟨_, rfl⟩ := RingMember.new?_eq_ok_iff.mp isNew
    have known := at? other
    rw [found, Option.map_some, partition, eq_comm, Option.map_eq_some_iff] at known
    rcases known with ⟨same, there, isSame⟩
    cases isSame
    exact (List.getElem?_inj (List.getElem?_eq_some_iff.mp there).1 nodup).mp
      (there.trans here.symm)

/-- A peer of a ring has the applications of which it is the owner. -/
theorem IsPeer.owns_iff (isPeer : fleet.IsPeer peers nodes index self) {app : AppName}
    {owner : String}
    (owned : (HashRing.ofPeers Partition.ringHash peers nodes).owner? Partition.ringHash app.text =
      some owner) {engine : Engine} (found : fleet.engine? index = some engine) :
    engine.owns app = true ↔ self = owner := by
  rcases isPeer with ⟨other, member, otherFound, partition, isNew⟩
  obtain rfl := Option.some.inj (found.symm.trans otherFound)
  obtain ⟨_, rfl⟩ := RingMember.new?_eq_ok_iff.mp isNew
  rw [Engine.owns, partition]
  simp only [Partition.owns]
  rw [RingMember.owns, RingMember.owner_eq owned, beq_iff_eq, eq_comm]

end Fleet

namespace World

variable {world : World} {acts : List Act} {index : Nat} {session : Session}

theorem engine?_of_session? {fleet : Fleet} (found : fleet.session? index = some session) :
    fleet.engine? index = some session.engine := by
  rcases Fleet.session?_eq_some_iff.mp found with ⟨member, here, rfl⟩
  rw [Fleet.engine?, here, Option.map_some]

theorem exists_session?_of_engine? {fleet : Fleet} {engine : Engine}
    (found : fleet.engine? index = some engine) (shared : fleet.hasOwn index = false) :
    fleet.session? index = some ⟨fleet.now, fleet.shared, engine⟩ := by
  rcases Option.map_eq_some_iff.mp found with ⟨⟨same, own⟩, here, rfl⟩
  rw [Fleet.hasOwn, here, Option.any_some, Option.isSome_eq_false_iff,
    Option.isNone_iff_eq_none] at shared
  rw [Fleet.session?, here, Option.map_some, shared]
  rfl

/--
Rebalancing splits the deployments. An engine that is asked to rebalance answers how many there are
of its own applications. Once it has answered, if it was left in peace, all actors at work are for
its own applications, all deployments of these have their actors, and to rebalance again changes
nothing at all. If all engines have rebalanced, and are the peers of one ring, each deployment has
its actor with exactly one of them.
-/
theorem split_by_rebalancing (world : World) :
    (∀ session pending later, Call.rebalance.run session = (.ok pending, later) →
      pending.answer = (Call.ownDeployments session).length) ∧
    (∀ index session during later, world.Rebalances index session during →
      (world.afterAll (.ask index .rebalance :: during)).fleet.session? index = some later →
        later.IsSettled ∧ (later.backend.outage = none →
          ∃ chore, later.afterDeed (.answer .rebalance) = (later, .ok [chore]) ∧
            later.afterDeed (.perform chore) = (later, .ok []))) ∧
    ∀ acts peers nodes, peers ≠ [] → (world.afterAll acts).fleet.SharesRing peers nodes →
      (∀ index engine, (world.afterAll acts).fleet.engine? index = some engine →
        world.HasRebalanced index acts ∧ (world.afterAll acts).fleet.hasOwn index = false) →
      ∀ app record, (world.afterAll acts).fleet.shared.store.deployment? app = some record →
        ∃! index, ∃ session, (world.afterAll acts).fleet.session? index = some session ∧
          session.mans ⟨record.lattice, app⟩ = true := by
  refine ⟨?_, ?_, ?_⟩
  · intro session pending later ran
    rcases Call.ensures_rebalance session _ _ ran with ⟨_, changed, rfl⟩
    rfl
  · intro index session during later rebalances found
    have settled := rebalances.isSettled found
    exact ⟨settled, fun inReach => ⟨_, settled.rebalances inReach, rfl⟩⟩
  · intro acts peers nodes someone ring rebalanced app record recorded
    rcases HashRing.exists_owner? Partition.ringHash someone nodes app.text with
      ⟨owner, isPeer, owned⟩
    rcases ring.one owner isPeer with ⟨index, isOwner, alone⟩
    refine ⟨index, ?_, ?_⟩
    · -- The owner on the ring has taken the deployment up,
      rcases isOwner.exists_engine with ⟨engine, found⟩
      rcases rebalanced index engine found with ⟨hasRebalanced, shared⟩
      have foundHere := exists_session?_of_engine? found shared
      have settled := hasRebalanced.isSettled foundHere
      exact ⟨_, foundHere, settled.manned app record recorded
        ((isOwner.owns_iff owned found).mpr rfl)⟩
    · -- and whoever has an actor for it is its owner.
      rintro other ⟨session, foundOther, manned⟩
      have found := engine?_of_session? foundOther
      have settled := (rebalanced other _ found).1.isSettled foundOther
      rcases ring.peer other _ found with ⟨self, isOther⟩
      obtain rfl := (isOther.owns_iff owned found).mp (settled.own _ manned)
      exact alone other isOther

/-- Two peers of a ring split two deployments, which one of them has had actors for until then. -/
theorem split_by_rebalancing_of_two_peers :
    let manifest (app : AppName) : Manifest :=
      (Manifest.new app "v1").withComponent (Component.new "api" .component "registry/api:1")
    let peers : List String := ["engine-0", "engine-1"]
    let ring (self : String) : Partition := .ring ⟨self, .ofPeers Partition.ringHash peers 1⟩
    let member (source : Nat) (partition : Partition) : Member :=
      ⟨.new source .development .new none (some partition), none⟩
    let fresh : World := .new ⟨0, ⟨0, 0⟩⟩ [member 0 .everything, member 1 (ring "engine-1")]
    let before : List Act :=
      [.ask 0 (.submit (manifest ⟨"shop"⟩)), .ask 0 (.submit (manifest ⟨"wiki"⟩)),
        .ask 0 (.deploy ⟨"shop"⟩ none ⟨"prod"⟩), .ask 0 (.deploy ⟨"wiki"⟩ none ⟨"prod"⟩),
        .carryOn 3, .ask 0 (.setPartition (ring "engine-0"))]
    let during : List Act :=
      [.carryOn 5, .carryOn 5, .carryOn 5, .moveActor 0 1, .carryOn 5, .carryOn 5]
    let rest : List Act := [.carryOn 6]
    let first : World := fresh.afterAll before
    let second : World := fresh.afterAll (before ++ .ask 0 .rebalance :: during)
    let acts : List Act := before ++ .ask 0 .rebalance :: (during ++ .ask 1 .rebalance :: rest)
    ∃ one other later, first.Rebalances 0 one (during ++ .ask 1 .rebalance :: rest) ∧
      second.Rebalances 1 other rest ∧ (fresh.afterAll acts).fleet.session? 0 = some later ∧
      (∃ pending settling, Call.rebalance.run one = (.ok pending, settling) ∧
        pending.answer = 1) ∧
      later.IsSettled ∧ (fresh.afterAll acts).fleet.SharesRing peers 1 ∧
      ∃! index, ∃ session, (fresh.afterAll acts).fleet.session? index = some session ∧
        session.mans ⟨⟨"prod"⟩, ⟨"wiki"⟩⟩ = true := by
  intro manifest peers ring member fresh before during rest first second acts
  have seenFirst : (first.fleet.session? 0).any (fun session =>
      (Call.ownDeployments session).length == 1 &&
        ((Call.rebalance.run session).1.toOption.isSome && session.engine.loops.isEmpty &&
          first.errands.all fun errand => errand.member != 0 ||
            errand.chores.all (Chore.isHarmless session.engine.owns))) = true := by decide +kernel
  have seenSecond : (second.fleet.session? 1).any (fun session =>
      (Call.rebalance.run session).1.toOption.isSome && session.engine.loops.isEmpty &&
        second.errands.all fun errand => errand.member != 1 ||
          errand.chores.all (Chore.isHarmless session.engine.owns)) = true := by decide +kernel
  rcases (Option.any_eq_true _ _).mp seenFirst with ⟨one, found, seenFirst⟩
  rcases (Option.any_eq_true _ _).mp seenSecond with ⟨other, foundOther, seenSecond⟩
  rw [Bool.and_eq_true, Bool.and_eq_true, Bool.and_eq_true, beq_iff_eq] at seenFirst
  rw [Bool.and_eq_true, Bool.and_eq_true] at seenSecond
  have rebalances : first.Rebalances 0 one (during ++ .ask 1 .rebalance :: rest) :=
    rebalances_of_calm found seenFirst.2.1.1 seenFirst.2.1.2 seenFirst.2.2 (by decide)
      (by decide +kernel)
  have otherRebalances : second.Rebalances 1 other rest :=
    rebalances_of_calm foundOther seenSecond.1.1 seenSecond.1.2 seenSecond.2 (by decide)
      (by decide +kernel)
  have seenLast : (fresh.afterAll acts).fleet.members.map (fun member => member.engine.partition) =
        peers.map (fun self => some (ring self)) ∧
      (fresh.afterAll acts).fleet.members.map (fun member => member.own) = [none, none] ∧
      (fresh.afterAll acts).fleet.shared.store.deployment? ⟨"wiki"⟩ =
        some ⟨⟨"prod"⟩, .active, ⟨0, 0⟩⟩ := by decide +kernel
  rcases seenLast with ⟨partitions, owns, recorded⟩
  have shares := Fleet.sharesRing_of_map partitions (by decide)
  rcases exists_session?_afterAll found
    (.ask 0 .rebalance :: (during ++ .ask 1 .rebalance :: rest)) with ⟨later, laterFound⟩
  rcases rebalances.answered with ⟨pending, settling, ran⟩
  have split := split_by_rebalancing first
  have answered := split.1 one pending settling ran
  have settled := (split.2.1 0 one _ later rebalances laterFound).1
  have foundLater : (fresh.afterAll acts).fleet.session? 0 = some later := by
    rw [← laterFound]
    exact congrArg (fun world : World => world.fleet.session? 0) List.foldl_append
  have rebalanced : ∀ index engine, (fresh.afterAll acts).fleet.engine? index = some engine →
      fresh.HasRebalanced index acts ∧ (fresh.afterAll acts).fleet.hasOwn index = false := by
    intro index engine engineFound
    rcases Option.map_eq_some_iff.mp engineFound with ⟨member, here, rfl⟩
    constructor
    · have bound := (List.getElem?_eq_some_iff.mp here).1
      rw [← List.length_map (f := fun member : Member => member.own), owns] at bound
      rcases Nat.le_one_iff_eq_zero_or_eq_one.mp (Nat.le_of_lt_succ bound) with rfl | rfl
      · exact ⟨before, _, one, rfl, rebalances⟩
      · exact ⟨before ++ .ask 0 .rebalance :: during, rest, other, rfl, otherRebalances⟩
    · have isMember : member.own ∈ [none, none] :=
        owns ▸ List.mem_map_of_mem (List.mem_of_getElem? here)
      have shared : member.own = none := by simpa using isMember
      rw [Fleet.hasOwn, here, Option.any_some, shared, Option.isSome_none]
  have split := (split_by_rebalancing fresh).2.2
  have someone : peers ≠ [] := by decide
  have unique := split acts peers 1 someone shares rebalanced ⟨"wiki"⟩
    ⟨⟨"prod"⟩, .active, ⟨0, 0⟩⟩ recorded
  refine ⟨one, other, later, ?_, ?_, ?_, ?_, ?_, ?_, ?_⟩
  · exact rebalances
  · exact otherRebalances
  · exact foundLater
  · exact ⟨pending, settling, ran, answered.trans seenFirst.1⟩
  · exact settled
  · exact shares
  · exact unique

/--
Two applications are taken from an engine, which begins to release them. While the actor of the
first one ends they come back, and a third one is taken. The engine rebalances, in peace, for two
applications. But before it answers the first release goes on, and so at last the second application
is deployed and the engine's own, and has no actor.
-/
theorem unmanned_after_rebalancing :
    let manifest (app : AppName) : Manifest :=
      (Manifest.new app "v1").withComponent (Component.new "api" .component "registry/api:1")
    let apps : List AppName := [⟨"blog"⟩, ⟨"shop"⟩, ⟨"wiki"⟩]
    let fresh : World :=
      .new ⟨0, ⟨0, 0⟩⟩ [⟨.new 0 .development .new (some (.ofList apps)) none, none⟩]
    let before : List Act :=
      apps.map (fun app => .ask 0 (.submit (manifest app))) ++
        apps.map (fun app => .ask 0 (.deploy app none ⟨"prod"⟩)) ++
        [.carryOn 3, .carryOn 3, .carryOn 4, .carryOn 4, .carryOn 5, .carryOn 5,
          .ask 0 (.revoke ⟨"blog"⟩), .ask 0 (.revoke ⟨"shop"⟩), .ask 0 .rebalance, .carryOn 8,
          .carryOn 8, .carryOn 8, .ask 0 (.assign ⟨"blog"⟩), .ask 0 (.assign ⟨"shop"⟩),
          .ask 0 (.revoke ⟨"wiki"⟩)]
    let during : List Act :=
      [.carryOn 12, .carryOn 12, .carryOn 12, .moveActor 0 0, .carryOn 8, .carryOn 8, .carryOn 8,
        .moveActor 0 2, .carryOn 12, .carryOn 12]
    let world : World := fresh.afterAll before
    let later : World := world.afterAll (.ask 0 .rebalance :: during)
    fresh.IsFresh ∧ (world.after (.ask 0 .rebalance)).Peaceful 0 during ∧
      (world.fleet.session? 0).map (fun session =>
        (Call.rebalance.run session).1.map Pending.answer) = some (.ok 2) ∧
      later.errands[world.errands.length]? = some ⟨0, []⟩ ∧
      (later.fleet.session? 0).map (fun session =>
        (session.backend.store.deployment? ⟨"shop"⟩, session.engine.owns ⟨"shop"⟩,
          session.engine.roster.keys)) =
        some (some ⟨⟨"prod"⟩, .active, ⟨0, 0⟩⟩, true, [⟨⟨"prod"⟩, ⟨"blog"⟩⟩]) ∧
      (later.fleet.session? 0).map (fun session =>
        (session.afterDeed (.answer .rebalance)).2) = some (.ok [.release [] 2 true]) := by
  intro manifest apps fresh before during world later
  refine ⟨isFresh_new_singleton, peaceful_of_all (by decide), ?_, ?_, ?_, ?_⟩
  · decide +kernel
  · decide +kernel
  · decide +kernel
  · decide +kernel

end World

end Reconciler
