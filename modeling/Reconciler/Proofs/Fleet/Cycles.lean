import Reconciler.Proofs.Fleet.Members

/-!
# Cycles under way

Only a move of an actor puts it into the middle of a cycle, where it waits for the transport, and
the cycle has begun then or goes on. Whatever else happens, actors stay at what they are.
-/

namespace Reconciler

/-- Two actors are one and the same, at the same work. -/
structure Actor.SameWork (actor next : Actor) : Prop where
  number : next.number = actor.number
  key : next.key = actor.key
  intent : next.intent = actor.intent
  stage : next.stage = actor.stage

namespace Actor

theorem SameWork.refl (actor : Actor) : actor.SameWork actor :=
  ⟨rfl, rfl, rfl, rfl⟩

theorem SameWork.trans {actor next last : Actor} (same : actor.SameWork next)
    (more : next.SameWork last) : actor.SameWork last :=
  ⟨more.number.trans same.number, more.key.trans same.key, more.intent.trans same.intent,
    more.stage.trans same.stage⟩

theorem sameWork_push (actor : Actor) (trigger : Trigger) :
    actor.SameWork (actor.push trigger) :=
  ⟨rfl, rfl, rfl, rfl⟩

theorem sameWork_nudge (actor : Actor) (capacity : Nat) (trigger : Trigger) :
    actor.SameWork (actor.nudge capacity trigger) := by
  rw [nudge]
  split
  · exact actor.sameWork_push trigger
  · exact .refl actor

end Actor

namespace Engine

variable {engine : Engine} {actor : Actor}

theorem mem_actors_iff :
    actor ∈ engine.actors ↔
      (∃ key, engine.roster.find? key = some actor) ∨ actor ∈ engine.leaving := by
  rw [actors, List.mem_append, SortedMap.mem_values_iff]

theorem mem_of_actor? {number : Nat} (found : engine.actor? number = some actor) :
    actor ∈ engine.actors ∧ actor.number = number := by
  rw [actor?] at found
  exact ⟨List.mem_of_find?_eq_some found, by simpa using List.find?_some found⟩

/-- An actor is changed where it is. -/
theorem mem_updateActor {number : Nat} {update : Actor → Actor}
    (member : actor ∈ (engine.updateActor number update).actors) :
    ∃ former ∈ engine.actors,
      actor = if former.number = number then update former else former := by
  rcases mem_actors_iff.mp member with ⟨key, found⟩ | left
  · rw [updateActor, SortedMap.find?_mapValues, Option.map_eq_some_iff] at found
    rcases found with ⟨former, found, same⟩
    exact ⟨former, mem_actors_iff.mpr (Or.inl ⟨key, found⟩), same.symm⟩
  · rcases List.mem_map.mp left with ⟨former, found, same⟩
    exact ⟨former, mem_actors_iff.mpr (Or.inr found), same.symm⟩

/-- An update that leaves actors at their work. -/
theorem sameWork_updateActor {number : Nat} {update : Actor → Actor}
    (keeps : ∀ former : Actor, former.SameWork (update former))
    (member : actor ∈ (engine.updateActor number update).actors) :
    ∃ former ∈ engine.actors, former.SameWork actor := by
  rcases mem_updateActor member with ⟨former, found, rfl⟩
  refine ⟨former, found, ?_⟩
  split
  · exact keeps former
  · exact .refl former

theorem sameWork_nudgeAll {test : ActorKey → Bool} {trigger : Trigger}
    (member : actor ∈ (engine.nudgeAll test trigger).actors) :
    ∃ former ∈ engine.actors, former.SameWork actor := by
  rcases mem_actors_iff.mp member with ⟨key, found⟩ | left
  · rw [nudgeAll, SortedMap.find?_mapValues, Option.map_eq_some_iff] at found
    rcases found with ⟨former, found, rfl⟩
    refine ⟨former, mem_actors_iff.mpr (Or.inl ⟨key, found⟩), ?_⟩
    split
    · exact former.sameWork_nudge _ _
    · exact .refl former
  · exact ⟨actor, mem_actors_iff.mpr (Or.inr left), .refl actor⟩

end Engine

namespace Session

variable {deed : Deed} {doing : Option Chore} {session next : Session} {actor : Actor}

theorem sameWork_deliver {number : Nat} {trigger : Trigger} {isWaiting : Bool}
    (member : actor ∈ (session.deliver number trigger isWaiting).1.engine.actors) :
    ∃ former ∈ session.engine.actors, former.SameWork actor := by
  rw [deliver] at member
  split at member
  · exact ⟨actor, member, .refl actor⟩
  · split at member
    · refine Engine.sameWork_updateActor ?_ member
      exact fun former => ⟨rfl, rfl, rfl, rfl⟩
    · split at member
      · exact Engine.sameWork_updateActor (fun former => former.sameWork_push trigger) member
      · refine Engine.sameWork_updateActor ?_ member
        exact fun former => ⟨rfl, rfl, rfl, rfl⟩

theorem mem_takeOff {key : ActorKey}
    (member : actor ∈ (session.takeOff key).1.engine.actors) : actor ∈ session.engine.actors := by
  rw [takeOff] at member
  split at member
  · exact member
  · rename_i released present
    rcases Engine.mem_actors_iff.mp member with ⟨other, found⟩ | left
    · rw [SortedMap.find?_erase] at found
      split at found
      · cases found
      · exact Engine.mem_actors_iff.mpr (Or.inl ⟨other, found⟩)
    · rcases List.mem_append.mp left with left | isReleased
      · exact Engine.mem_actors_iff.mpr (Or.inr left)
      · rw [List.mem_singleton.mp isReleased]
        exact Engine.mem_actors_iff.mpr (Or.inl ⟨key, present⟩)

/-- No service puts an actor into the middle of a cycle. -/
theorem Service.sameWork {offered : List Command} {orders : List Order}
    (service : Service deed doing session offered orders next)
    (member : actor ∈ next.engine.actors) (busy : actor.stage ≠ .receiving) :
    ∃ former ∈ session.engine.actors, former.SameWork actor := by
  cases service with
  | dispatches dispatches =>
      rw [dispatches.crew.actors] at member
      exact ⟨actor, member, .refl actor⟩
  | nudges test background => exact Engine.sameWork_nudgeAll member
  | @hires key absent intent active =>
      rw [Engine.ensureActor, absent] at member
      refine ⟨actor, ?_, .refl actor⟩
      rcases Engine.mem_actors_iff.mp member with ⟨other, found⟩ | left
      · rw [SortedMap.find?_insert] at found
        split at found
        · cases found
          exact absurd rfl busy
        · exact Engine.mem_actors_iff.mpr (Or.inl ⟨other, found⟩)
      · exact Engine.mem_actors_iff.mpr (Or.inr left)
  | delivers does => exact sameWork_deliver member
  | takesOff key => exact ⟨actor, mem_takeOff member, .refl actor⟩
  | _ => exact ⟨actor, member, .refl actor⟩

theorem Serves.sameWork {offered : List Command} {orders : List Order}
    (serves : session.Serves deed doing offered orders next)
    (member : actor ∈ next.engine.actors) (busy : actor.stage ≠ .receiving) :
    ∃ former ∈ session.engine.actors, former.SameWork actor := by
  induction serves with
  | refl _ => exact ⟨actor, member, .refl actor⟩
  | head service _ ih =>
      rcases ih member with ⟨middle, middleMember, same⟩
      rcases service.sameWork middleMember (same.stage ▸ busy) with ⟨former, formerMember, before⟩
      exact ⟨former, formerMember, before.trans same⟩

theorem Engaged.same {base : Actor} {total : Nat} {actions : List RequiredAction}
    (engaged : session.Engaged actor base total actions) :
    base.number = actor.number ∧ base.key = actor.key := by
  cases engaged with
  | begins wakes =>
      rcases takes_awake? wakes with ⟨taken, takes⟩
      exact ⟨takes.number, takes.key⟩
  | resumes => exact ⟨rfl, rfl⟩

/-- An actor has come to the middle of a cycle in its move, and has the rest of it left to do. -/
structure PutsOff (session : Session) (deed : Deed) (actor : Actor) (cycle : Cycle) : Prop where
  number : deed = .moveActor actor.number
  engaged : ∃ former base actions, session.engine.actor? actor.number = some former ∧
    session.Engaged former base cycle.total actions ∧ actions ≠ [] ∧
    cycle.remaining <:+ actions ∧ actor.key = base.key ∧ actor.intent = base.intent

theorem mem_putActor {moved : Actor} (member : actor ∈ (session.putActor moved).engine.actors) :
    actor ∈ session.engine.actors ∨ actor = moved := by
  rcases Engine.mem_updateActor member with ⟨former, found, rfl⟩
  split
  · exact Or.inr rfl
  · exact Or.inl found

theorem Conduct.sending {number : Nat} {moving : Actor} {offered : List Command}
    (conduct : session.Conduct moving offered next)
    (found : session.engine.actor? number = some moving)
    (member : actor ∈ next.engine.actors) {cycle : Cycle} {command : Command} {answersAt : Nat}
    (sending : actor.stage = .sending cycle command answersAt) :
    actor ∈ session.engine.actors ∨ session.PutsOff (.moveActor number) actor cycle := by
  -- All others stay as they are, so the actor is one of them unless it has come to wait itself.
  have still : ∀ {next : Session} {moved : Actor}, session.engine.SameCrew next.engine →
      moved.stage ≠ actor.stage → actor ∈ (next.putActor moved).engine.actors →
      actor ∈ session.engine.actors := by
    intro next moved crew different member
    rcases mem_putActor member with member | rfl
    · rwa [crew.actors] at member
    · exact absurd rfl different
  cases conduct with
  | waits => exact Or.inl member
  | absorbs takes background =>
      exact Or.inl (still (.refl _) (by simp [sending]) member)
  | ends wakes ending =>
      left
      rcases Engine.mem_actors_iff.mp member with present | left
      · exact Engine.mem_actors_iff.mpr (Or.inl present)
      · exact Engine.mem_actors_iff.mpr (Or.inr (List.mem_of_mem_filter left))
  | declines wakes lasting dispatches status =>
      exact Or.inl (still dispatches.crew (by simp [sending]) member)
  | settles engaged dispatches tires status =>
      exact Or.inl (still dispatches.crew (by simp [sending]) member)
  | erases engaged before untouched erases after status =>
      refine Or.inl (still (before.crew.trans after.crew) ?_ member)
      simp [sending]
  | sends engaged dispatches something part sent last time =>
      rcases mem_putActor member with member | rfl
      · rw [dispatches.crew.actors] at member
        exact Or.inl member
      · right
        cases sending
        have same := engaged.same
        have moves := (Engine.mem_of_actor? found).2
        refine ⟨congrArg Deed.moveActor (same.1.trans moves).symm, moving, _, _, ?_, engaged,
          something, part, rfl, rfl⟩
        exact (same.1.trans moves) ▸ found

/-- An actor in the middle of a cycle was there before, unless it has come there in its move. -/
theorem sending_afterDeed (session : Session) (deed : Deed)
    (member : actor ∈ (session.afterDeed deed).1.engine.actors) {cycle : Cycle}
    {command : Command} {answersAt : Nat}
    (sending : actor.stage = .sending cycle command answersAt) :
    (∃ former ∈ session.engine.actors, former.SameWork actor) ∨
      session.PutsOff deed actor cycle := by
  rcases session.conduct_or_serves_afterDeed deed with
    ⟨number, moving, rfl, found, conduct⟩ | ⟨_, serves⟩
  · rcases conduct.sending found member sending with same | putsOff
    · exact Or.inl ⟨actor, same, .refl actor⟩
    · exact Or.inr putsOff
  · exact Or.inl (serves.sameWork member (by simp [sending]))

end Session

end Reconciler
