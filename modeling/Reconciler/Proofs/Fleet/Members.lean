import Reconciler.Proofs.Fleet.Requests

/-!
# What an act is for each member

A member acts itself, or another one acts, which it notices only by the backend if both work on the
same one, or time passes. `World.shift_after` says so, and `World.afterAll_induction` extends what
every act keeps to runs.
-/

namespace Reconciler

namespace Session

variable {deed : Deed} {doing : Option Chore} {session next : Session}

theorem Service.now {offered : List Command} {orders : List Order}
    (service : Service deed doing session offered orders next) : next.now = session.now := by
  cases service with
  | dispatches dispatches => exact dispatches.now
  | @delivers number trigger isWaiting _ =>
      rcases session.exists_deliver_eq number trigger isWaiting with ⟨roster, leaving, same⟩
      rw [same]
  | takesOff key =>
      rcases session.exists_takeOff_eq key with ⟨roster, leaving, same⟩
      rw [same]
  | _ => rfl

theorem Serves.now {offered : List Command} {orders : List Order}
    (serves : session.Serves deed doing offered orders next) : next.now = session.now := by
  induction serves with
  | refl _ => rfl
  | head service _ ih => exact ih.trans service.now

theorem Service.config {offered : List Command} {orders : List Order}
    (service : Service deed doing session offered orders next) :
    next.engine.config = session.engine.config := by
  cases service with
  | dispatches dispatches => exact dispatches.crew.config
  | hires absent intent => rw [Engine.ensureActor, absent]
  | @delivers number trigger isWaiting _ =>
      rcases session.exists_deliver_eq number trigger isWaiting with ⟨roster, leaving, same⟩
      rw [same]
  | takesOff key =>
      rcases session.exists_takeOff_eq key with ⟨roster, leaving, same⟩
      rw [same]
  | _ => rfl

/-- What is asked of an engine and what it does besides moving its actors configures it no more. -/
theorem Serves.config {offered : List Command} {orders : List Order}
    (serves : session.Serves deed doing offered orders next) :
    next.engine.config = session.engine.config := by
  induction serves with
  | refl _ => rfl
  | head service _ ih => exact ih.trans service.config

theorem Conduct.now {actor : Actor} {offered : List Command}
    (conduct : session.Conduct actor offered next) : next.now = session.now := by
  rcases conduct.exists_eq with ⟨middle, _, _, _, dispatches, rfl⟩
  exact dispatches.now

/-- A deed takes no time. -/
theorem now_afterDeed (session : Session) (deed : Deed) :
    (session.afterDeed deed).1.now = session.now := by
  rcases session.conduct_or_serves_afterDeed deed with ⟨_, _, _, _, conduct⟩ | ⟨_, serves⟩
  · exact conduct.now
  · exact serves.now

end Session

namespace Fleet

variable {fleet : Fleet} {index other : Nat} {session next : Session}

/-- Whether a member has a backend to itself. -/
def hasOwn (fleet : Fleet) (index : Nat) : Bool :=
  (fleet.members[index]?).any fun member => member.own.isSome

theorem session?_eq_some_iff :
    fleet.session? index = some session ↔ ∃ member, fleet.members[index]? = some member ∧
      session = ⟨fleet.now, member.own.getD fleet.shared, member.engine⟩ := by
  simp [session?, eq_comm]

theorem putSession_of_own {engine : Engine} {backend : Backend}
    (member : fleet.members[index]? = some ⟨engine, some backend⟩) (next : Session) :
    fleet.putSession index next =
      { fleet with members := fleet.members.set index ⟨next.engine, some next.backend⟩ } := by
  rw [putSession, member]

theorem putSession_of_shared {engine : Engine}
    (member : fleet.members[index]? = some ⟨engine, none⟩) (next : Session) :
    fleet.putSession index next =
      { fleet with
        shared := next.backend
        members := fleet.members.set index ⟨next.engine, none⟩ } := by
  rw [putSession, member]

theorem length_members_putSession (fleet : Fleet) (index : Nat) (next : Session) :
    (fleet.putSession index next).members.length = fleet.members.length := by
  rw [putSession.eq_def]
  split
  · rfl
  · exact List.length_set
  · exact List.length_set

/-- The work of a member takes no time. -/
theorem now_putSession (fleet : Fleet) (index : Nat) (next : Session) :
    (fleet.putSession index next).now = fleet.now := by
  rw [putSession.eq_def]
  split <;> rfl

/-- A member that has worked is as it has left its session. -/
theorem session?_putSession_self (found : fleet.session? index = some session)
    (sameTime : next.now = session.now) :
    (fleet.putSession index next).session? index = some next := by
  rcases session?_eq_some_iff.mp found with ⟨⟨engine, own⟩, member, rfl⟩
  have bound : index < fleet.members.length := (List.getElem?_eq_some_iff.mp member).1
  cases own with
  | none =>
      rw [putSession_of_shared member, session?, List.getElem?_set_self bound, Option.map_some]
      exact congrArg some (congrArg (Session.mk · next.backend next.engine) sameTime.symm)
  | some backend =>
      rw [putSession_of_own member, session?, List.getElem?_set_self bound, Option.map_some]
      exact congrArg some (congrArg (Session.mk · next.backend next.engine) sameTime.symm)

theorem putSession_self (found : fleet.session? index = some session) :
    fleet.putSession index session = fleet := by
  rcases session?_eq_some_iff.mp found with ⟨⟨engine, own⟩, member, rfl⟩
  rcases List.getElem?_eq_some_iff.mp member with ⟨bound, here⟩
  have same : fleet.members.set index ⟨engine, own⟩ = fleet.members := by
    rw [← here, List.set_getElem_self]
  cases own with
  | none =>
      rw [putSession_of_shared member]
      simp only [same, Option.getD_none]
  | some backend =>
      rw [putSession_of_own member]
      simp only [same, Option.getD_some]

/-- Only the last of the sessions that a member leaves counts. -/
theorem putSession_putSession (fleet : Fleet) (index : Nat) (next last : Session) :
    (fleet.putSession index next).putSession index last = fleet.putSession index last := by
  cases member : fleet.members[index]? with
  | none =>
      have same : fleet.putSession index next = fleet := by
        rw [putSession, member]
      rw [same]
  | some here =>
      have bound : index < fleet.members.length := (List.getElem?_eq_some_iff.mp member).1
      rcases here with ⟨engine, _ | backend⟩
      · rw [putSession_of_shared member, putSession_of_shared member,
          putSession_of_shared (List.getElem?_set_self bound), List.set_set]
      · rw [putSession_of_own member, putSession_of_own member,
          putSession_of_own (List.getElem?_set_self bound), List.set_set]

/-- Other members notice what happens to a backend that they share. -/
theorem session?_putSession_of_ne (found : fleet.session? index = some session)
    (different : index ≠ other) {last : Session}
    (later : (fleet.putSession index next).session? other = some last) :
    ∃ former, fleet.session? other = some former ∧
      ((fleet.hasOwn index = false ∧ fleet.hasOwn other = false ∧
          former.backend = session.backend ∧ last = { former with backend := next.backend }) ∨
        last = former) := by
  rcases session?_eq_some_iff.mp found with ⟨⟨engine, own⟩, member, rfl⟩
  cases own with
  | some backend =>
      rw [putSession_of_own member, session?, List.getElem?_set_ne different] at later
      exact ⟨last, later, Or.inr rfl⟩
  | none =>
      rw [putSession_of_shared member, session?, List.getElem?_set_ne different] at later
      rcases Option.map_eq_some_iff.mp later with ⟨⟨otherEngine, otherOwn⟩, otherMember, rfl⟩
      refine ⟨_, session?_eq_some_iff.mpr ⟨_, otherMember, rfl⟩, ?_⟩
      cases otherOwn with
      | some backend => exact Or.inr rfl
      | none =>
          left
          rw [hasOwn, hasOwn, member, otherMember]
          exact ⟨rfl, rfl, rfl, rfl⟩

end Fleet

namespace World

variable {world : World} {act : Act} {index : Nat} {session next : Session}

/-- What becomes of the session of a member in an act. -/
inductive Shift (world : World) (act : Act) (index : Nat) (session : Session) : Session → Prop
  /-- The member does something. -/
  | acts {deed : Deed} (about : world.deed? act = some (index, deed)) :
      Shift world act index session (session.afterDeed deed).1
  /-- Another member does something, on the same backend. -/
  | follows {member : Nat} {deed : Deed} {other : Session}
      (about : world.deed? act = some (member, deed)) (different : member ≠ index)
      (found : world.fleet.session? member = some other)
      (shared : world.fleet.hasOwn member = false ∧ world.fleet.hasOwn index = false)
      (same : session.backend = other.backend) :
      Shift world act index session
        { session with backend := (other.afterDeed deed).1.backend }
  /-- Nothing happens to the member, but time may pass. -/
  | passes (now : Moment) (still : ∀ deed, world.deed? act ≠ some (index, deed)) :
      Shift world act index session { session with now := now }

theorem after_of_deed? {member : Nat} {deed : Deed}
    (about : world.deed? act = some (member, deed)) {acting : Session}
    (found : world.fleet.session? member = some acting) :
    world.after act =
      ⟨world.fleet.putSession member (acting.afterDeed deed).1,
        world.errandsAfter (acting.afterDeed deed).2 act⟩ := by
  rw [after, about]
  simp only [found]

/-- What a member is like after an act comes of what it was like before. -/
theorem shift_after (later : (world.after act).fleet.session? index = some next) :
    ∃ session, world.fleet.session? index = some session ∧
      world.Shift act index session next := by
  cases about : world.deed? act with
  | none =>
      rw [after, about] at later
      rcases Fleet.session?_eq_some_iff.mp later with ⟨member, found, rfl⟩
      exact ⟨_, Fleet.session?_eq_some_iff.mpr ⟨member, found, rfl⟩, .passes _ (by simp [about])⟩
  | some doing =>
      rcases doing with ⟨member, deed⟩
      cases found : world.fleet.session? member with
      | none =>
          -- A deed of nobody changes nothing, and so it is not this member's.
          rw [after, about] at later
          simp only [found] at later
          refine ⟨next, later, .passes next.now ?_⟩
          intro other same
          cases about.symm.trans same
          cases found.symm.trans later
      | some acting =>
          rw [after_of_deed? about found] at later
          by_cases same : member = index
          · subst same
            rw [Fleet.session?_putSession_self found (acting.now_afterDeed deed)] at later
            obtain rfl := Option.some.inj later
            exact ⟨acting, found, .acts about⟩
          · rcases Fleet.session?_putSession_of_ne found same later with
              ⟨former, formerFound, ⟨shared, otherShared, sameBackend, rfl⟩ | rfl⟩
            · exact ⟨former, formerFound,
                .follows about same found ⟨shared, otherShared⟩ sameBackend⟩
            · refine ⟨next, formerFound, .passes next.now ?_⟩
              intro other sameDeed
              cases about.symm.trans sameDeed
              exact same rfl

theorem afterAll_concat (world : World) (acts : List Act) (act : Act) :
    world.afterAll (acts ++ [act]) = (world.afterAll acts).after act := by
  rw [afterAll, afterAll, List.foldl_append]
  rfl

/-- What holds of a member at first, and what every act keeps, holds after every run. -/
theorem afterAll_induction {motive : List Act → Session → Prop}
    (first : ∀ session, world.fleet.session? index = some session → motive [] session)
    (step : ∀ acts act former session,
      (world.afterAll acts).fleet.session? index = some former → motive acts former →
        (world.afterAll acts).Shift act index former session → motive (acts ++ [act]) session)
    {acts : List Act} (found : (world.afterAll acts).fleet.session? index = some session) :
    motive acts session := by
  induction acts using List.reverseRecOn generalizing session with
  | nil => exact first session found
  | append_singleton acts act ih =>
      rw [afterAll_concat] at found
      rcases shift_after found with ⟨former, formerFound, shift⟩
      exact step acts act former session formerFound (ih formerFound) shift

/-- All acts of a run meet a condition in the worlds in which they happen. -/
def Throughout (world : World) (holds : World → Act → Prop) (acts : List Act) : Prop :=
  ∀ first act, first ++ [act] <+: acts → holds (world.afterAll first) act

theorem throughout_concat_iff (holds : World → Act → Prop) {acts : List Act} :
    world.Throughout holds (acts ++ [act]) ↔
      world.Throughout holds acts ∧ holds (world.afterAll acts) act := by
  constructor
  · intro throughout
    exact ⟨fun first other part => throughout first other (part.trans (List.prefix_append _ _)),
      throughout acts act List.prefix_rfl⟩
  · rintro ⟨throughout, last⟩ first other part
    rcases List.prefix_concat_iff.mp part with same | before
    · rcases List.append_inj' same rfl with ⟨rfl, isAct⟩
      cases isAct
      exact last
    · exact throughout first other before

theorem isFresh_new_singleton {now : Moment} {source : Nat} {config : ControlConfig} {sink : Sink}
    {assignment : Option Assignment} {partition : Option Partition} {own : Option Backend} :
    (World.new now [⟨.new source config sink assignment partition, own⟩]).IsFresh := by
  refine ⟨?_, rfl⟩
  intro member isMember
  exact ⟨_, _, _, _, _, congrArg Member.engine (List.mem_singleton.mp isMember)⟩

theorem IsFresh.exists_eq_new (fresh : world.IsFresh)
    (found : world.fleet.session? index = some session) :
    ∃ source config sink assignment partition,
      session.engine = .new source config sink assignment partition := by
  rcases Fleet.session?_eq_some_iff.mp found with ⟨member, isMember, rfl⟩
  exact fresh.isNew member (List.mem_of_getElem? isMember)

theorem length_members_after (world : World) (act : Act) :
    (world.after act).fleet.members.length = world.fleet.members.length := by
  cases about : world.deed? act with
  | none => rw [after, about]
  | some doing =>
      rcases doing with ⟨member, deed⟩
      cases found : world.fleet.session? member with
      | none =>
          rw [after, about]
          simp only [found]
      | some acting =>
          rw [after_of_deed? about found]
          exact Fleet.length_members_putSession _ _ _

/-- Members stay members. -/
theorem exists_session?_afterAll (found : world.fleet.session? index = some session)
    (acts : List Act) : ∃ later, (world.afterAll acts).fleet.session? index = some later := by
  have bound : index < world.fleet.members.length := by
    rcases Fleet.session?_eq_some_iff.mp found with ⟨member, isMember, _⟩
    exact (List.getElem?_eq_some_iff.mp isMember).1
  have same : (world.afterAll acts).fleet.members.length = world.fleet.members.length := by
    induction acts using List.reverseRecOn with
    | nil => rfl
    | append_singleton acts act ih => rw [afterAll_concat, length_members_after, ih]
  rw [← same] at bound
  exact ⟨_, Fleet.session?_eq_some_iff.mpr ⟨_, List.getElem?_eq_getElem bound, rfl⟩⟩

/-- Only somebody who asks has a member answer. -/
theorem eq_ask_of_deed? {request : Request}
    (about : world.deed? act = some (index, .answer request)) : act = .ask index request := by
  cases act with
  | ask member other =>
      cases about
      rfl
  | carryOn errand =>
      rw [deed?] at about
      split at about <;> cases about
  | _ => cases about

end World

end Reconciler
