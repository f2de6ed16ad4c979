import Reconciler.Proofs.Fleet.Deployments
import Reconciler.Proofs.Fleet.Cycles
import Reconciler.Proofs.Fleet.Errands

/-!
# Actors that keep step with deployments

While an actor works towards the manifest it does not look where its application is deployed, but
goes by the triggers that reach it. An actor keeps step if each deployment that it has not heard
the end of still lasts, or if the order that tells it of the end is on its way.
-/

namespace Reconciler

/-- Whether a trigger has an actor work towards the manifest. -/
def Trigger.deploys : Trigger → Bool
  | deploy => true
  | rollback => true
  | _ => false

namespace Intent

theorem after_of_unordered {trigger : Trigger} (unordered : trigger.isOrder = false)
    (intent : Intent) : intent.after trigger = intent := by
  cases trigger with
  | deploy => cases unordered
  | rollback => cases unordered
  | undeploy mode => cases unordered
  | _ => rfl

theorem after_undeploy_ne (intent : Intent) (mode : UndeployMode) :
    intent.after (.undeploy mode) ≠ .converge := by
  rw [after]
  split
  · rename_i forced
    rw [forced]
    exact fun same => by cases same
  · exact fun same => by cases same

/-- If triggers lead to the manifest from another intent, they lead there from everywhere. -/
theorem foldl_after_eq_converge {intent : Intent} (elsewhere : intent ≠ .converge)
    {triggers : List Trigger} (leads : triggers.foldl after intent = .converge)
    (start : Intent) : triggers.foldl after start = .converge := by
  induction triggers generalizing intent start with
  | nil => exact absurd leads elsewhere
  | cons trigger triggers ih =>
      rw [List.foldl_cons] at leads ⊢
      cases trigger with
      | deploy => exact leads
      | rollback => exact leads
      | undeploy mode => exact ih (after_undeploy_ne intent mode) leads _
      | _ => exact ih elsewhere leads _

/-- Only a trigger to remove the application leads away from the manifest. -/
theorem exists_undeploy_of_foldl_after_ne {triggers : List Trigger}
    (leads : triggers.foldl after .converge ≠ .converge) : ∃ mode, .undeploy mode ∈ triggers := by
  induction triggers with
  | nil => exact absurd rfl leads
  | cons trigger triggers ih =>
      rw [List.foldl_cons] at leads
      cases trigger with
      | undeploy mode => exact ⟨mode, List.mem_cons_self⟩
      | _ =>
          rcases ih leads with ⟨mode, member⟩
          exact ⟨mode, List.mem_cons_of_mem _ member⟩

end Intent

namespace Actor

/-- What an actor works towards once it has taken all that is in its queue. -/
def heading (actor : Actor) : Intent :=
  actor.queue.foldl Intent.after actor.intent

/-- An actor that is the same, and heads for the manifest only if it did so before. -/
structure Follows (former actor : Actor) : Prop where
  number : actor.number = former.number
  heading : actor.heading = .converge → former.heading = .converge

variable {former actor last : Actor}

theorem Follows.refl (actor : Actor) : actor.Follows actor :=
  ⟨rfl, id⟩

theorem Follows.trans (follows : former.Follows actor) (more : actor.Follows last) :
    former.Follows last :=
  ⟨more.number.trans follows.number, fun heads => follows.heading (more.heading heads)⟩

theorem heading_push (actor : Actor) (trigger : Trigger) :
    (actor.push trigger).heading = actor.heading.after trigger := by
  rw [heading, push, List.foldl_append]
  rfl

theorem follows_push {trigger : Trigger} (unordered : trigger.isOrder = false) (actor : Actor) :
    actor.Follows (actor.push trigger) := by
  refine ⟨rfl, ?_⟩
  rw [heading_push, Intent.after_of_unordered unordered]
  exact id

theorem Takes.heading {taken : List Trigger} (takes : former.Takes taken actor) :
    actor.heading = former.heading := by
  rw [Actor.heading, Actor.heading, takes.intent, takes.queue, List.foldl_append]

end Actor

namespace Engine

/-- The actors of an engine are told apart by their numbers, and later ones will be as well. -/
structure Numbered (engine : Engine) : Prop where
  bounded : ∀ actor ∈ engine.actors, actor.number < engine.actorsStarted
  unique : ∀ key other actor another, engine.roster.find? key = some actor →
    engine.roster.find? other = some another → actor.number = another.number → key = other
  apart : ∀ key actor, engine.roster.find? key = some actor → ∀ another ∈ engine.leaving,
    another.number ≠ actor.number

/-- The actors of an engine go by the numbers of those that there were, or of some of them. -/
structure SameNumbers (engine next : Engine) : Prop where
  roster : ∀ key actor, next.roster.find? key = some actor →
    ∃ former, engine.roster.find? key = some former ∧ actor.number = former.number
  leaving : ∀ actor ∈ next.leaving, ∃ former ∈ engine.leaving, actor.number = former.number
  started : next.actorsStarted = engine.actorsStarted

/-- The actors of an engine are those that there were, or some of them. -/
structure Keeps (engine next : Engine) : Prop where
  roster : ∀ key actor, next.roster.find? key = some actor →
    ∃ former, engine.roster.find? key = some former ∧ former.Follows actor
  leaving : ∀ actor ∈ next.leaving, ∃ former ∈ engine.leaving, actor.number = former.number
  started : next.actorsStarted = engine.actorsStarted

variable {engine next : Engine} {key : ActorKey} {actor former : Actor}

theorem Keeps.sameNumbers (keeps : engine.Keeps next) : engine.SameNumbers next where
  roster key actor present := by
    rcases keeps.roster key actor present with ⟨former, found, follows⟩
    exact ⟨former, found, follows.number⟩
  leaving := keeps.leaving
  started := keeps.started

theorem Keeps.refl (engine : Engine) : engine.Keeps engine :=
  ⟨fun _ actor present => ⟨actor, present, .refl actor⟩, fun actor left => ⟨actor, left, rfl⟩, rfl⟩

theorem Keeps.trans {last : Engine} (keeps : engine.Keeps next) (more : next.Keeps last) :
    engine.Keeps last := by
  refine ⟨?_, ?_, more.started.trans keeps.started⟩
  · intro key actor present
    rcases more.roster key actor present with ⟨middle, found, follows⟩
    rcases keeps.roster key middle found with ⟨former, formerFound, before⟩
    exact ⟨former, formerFound, before.trans follows⟩
  · intro actor left
    rcases more.leaving actor left with ⟨middle, found, same⟩
    rcases keeps.leaving middle found with ⟨former, formerFound, before⟩
    exact ⟨former, formerFound, same.trans before⟩

theorem SameCrew.keeps (same : engine.SameCrew next) : engine.Keeps next := by
  refine ⟨?_, ?_, same.actorsStarted⟩
  · rw [same.roster]
    exact (Keeps.refl engine).roster
  · rw [same.leaving]
    exact (Keeps.refl engine).leaving

theorem numbered_new (source : Nat) (config : ControlConfig) (sink : Sink)
    (assignment : Option Assignment) (partition : Option Partition) :
    (new source config sink assignment partition).Numbered where
  bounded _ member := by cases member
  unique _ _ _ _ present := by cases present
  apart _ _ present := by cases present

theorem Numbered.lt_of_find? (numbered : engine.Numbered)
    (present : engine.roster.find? key = some actor) : actor.number < engine.actorsStarted :=
  numbered.bounded actor (mem_actors_iff.mpr (Or.inl ⟨key, present⟩))

theorem Numbered.of_sameNumbers (numbered : engine.Numbered) (same : engine.SameNumbers next) :
    next.Numbered := by
  refine ⟨?_, ?_, ?_⟩
  · intro actor member
    rw [same.started]
    rcases mem_actors_iff.mp member with ⟨key, present⟩ | left
    · rcases same.roster key actor present with ⟨former, found, number⟩
      rw [number]
      exact numbered.lt_of_find? found
    · rcases same.leaving actor left with ⟨former, found, number⟩
      rw [number]
      exact numbered.bounded former (mem_actors_iff.mpr (Or.inr found))
  · intro key other actor another present otherPresent alike
    rcases same.roster key actor present with ⟨former, found, number⟩
    rcases same.roster other another otherPresent with ⟨otherFormer, otherFound, otherNumber⟩
    refine numbered.unique key other former otherFormer found otherFound ?_
    rw [← number, alike, otherNumber]
  · intro key actor present another left
    rcases same.roster key actor present with ⟨former, found, number⟩
    rcases same.leaving another left with ⟨otherFormer, otherFound, otherNumber⟩
    rw [otherNumber, number]
    exact numbered.apart key former found otherFormer otherFound

/-- An actor of the roster is the one that goes by its number. -/
theorem Numbered.eq_of_actor? (numbered : engine.Numbered) {number : Nat}
    (found : engine.actor? number = some actor) (present : engine.roster.find? key = some former)
    (same : former.number = number) : former = actor := by
  rcases mem_of_actor? found with ⟨member, isNumber⟩
  rcases mem_actors_iff.mp member with ⟨other, otherPresent⟩ | left
  · have sameKey := numbered.unique key other former actor present otherPresent
      (same.trans isNumber.symm)
    subst sameKey
    exact Option.some.inj (present.symm.trans otherPresent)
  · exact absurd (isNumber.trans same.symm) (numbered.apart key former present actor left)

theorem actor?_ne_none_of_find? (present : engine.roster.find? key = some actor) :
    engine.actor? actor.number ≠ none := by
  intro absent
  have isThere := mem_actors_iff.mpr (Or.inl ⟨key, present⟩)
  exact List.find?_eq_none.mp absent actor isThere (beq_self_eq_true actor.number)

theorem Numbered.actor?_eq_some (numbered : engine.Numbered)
    (present : engine.roster.find? key = some actor) :
    engine.actor? actor.number = some actor := by
  rcases Option.ne_none_iff_exists'.mp (actor?_ne_none_of_find? present) with ⟨other, found⟩
  rw [found, numbered.eq_of_actor? found present rfl]

theorem find?_updateActor {number : Nat} {update : Actor → Actor} :
    (engine.updateActor number update).roster.find? key =
      (engine.roster.find? key).map fun former =>
        if former.number = number then update former else former :=
  SortedMap.find?_mapValues _ _ _

theorem keeps_updateActor {number : Nat} {update : Actor → Actor}
    (follows : ∀ key former, engine.roster.find? key = some former → former.number = number →
      former.Follows (update former))
    (numbers : ∀ former : Actor, former.number = number → (update former).number = number) :
    engine.Keeps (engine.updateActor number update) := by
  refine ⟨?_, ?_, rfl⟩
  · intro key actor present
    rw [find?_updateActor, Option.map_eq_some_iff] at present
    rcases present with ⟨former, found, rfl⟩
    refine ⟨former, found, ?_⟩
    split
    · rename_i same
      exact follows key former found same
    · exact .refl former
  · intro actor left
    rcases List.mem_map.mp left with ⟨former, found, rfl⟩
    refine ⟨former, found, ?_⟩
    split
    · rename_i same
      rw [numbers former same, same]
    · rfl

theorem keeps_nudgeAll {test : ActorKey → Bool} {trigger : Trigger}
    (background : trigger.isBackground = true) (engine : Engine) :
    engine.Keeps (engine.nudgeAll test trigger) := by
  have unordered : trigger.isOrder = false := by
    cases trigger with
    | observed => rfl
    | resync => rfl
    | _ => cases background
  refine ⟨?_, fun actor left => ⟨actor, left, rfl⟩, rfl⟩
  intro key actor present
  rw [nudgeAll, SortedMap.find?_mapValues, Option.map_eq_some_iff] at present
  rcases present with ⟨former, found, rfl⟩
  refine ⟨former, found, ?_⟩
  split
  · rw [Actor.nudge]
    split
    · exact Actor.follows_push unordered former
    · exact .refl former
  · exact .refl former

/-- The next actor that starts has a number of its own. -/
theorem Numbered.ensureActor (numbered : engine.Numbered)
    (absent : engine.roster.find? key = none) (intent : Intent) :
    (engine.ensureActor key intent).1.Numbered := by
  rw [Engine.ensureActor, absent]
  refine ⟨?_, ?_, ?_⟩
  · intro actor member
    rcases mem_actors_iff.mp member with ⟨other, present⟩ | left
    · rw [SortedMap.find?_insert] at present
      split at present
      · obtain rfl := Option.some.inj present
        exact Nat.lt_succ_self _
      · exact Nat.lt_succ_of_lt (numbered.lt_of_find? present)
    · exact Nat.lt_succ_of_lt (numbered.bounded actor (mem_actors_iff.mpr (Or.inr left)))
  · intro one other actor another present otherPresent same
    rw [SortedMap.find?_insert] at present otherPresent
    split at present
    · rename_i isKey
      split at otherPresent
      · rename_i otherIsKey
        rw [isKey, otherIsKey]
      · obtain rfl := Option.some.inj present
        exact absurd same.symm (Nat.ne_of_lt (numbered.lt_of_find? otherPresent))
    · split at otherPresent
      · obtain rfl := Option.some.inj otherPresent
        exact absurd same (Nat.ne_of_lt (numbered.lt_of_find? present))
      · exact numbered.unique one other actor another present otherPresent same
  · intro other actor present another left
    rw [SortedMap.find?_insert] at present
    split at present
    · obtain rfl := Option.some.inj present
      exact Nat.ne_of_lt (numbered.bounded another (mem_actors_iff.mpr (Or.inr left)))
    · exact numbered.apart other actor present another left

end Engine

namespace Session

variable {session : Session}

theorem find?_takeOff (session : Session) (key other : ActorKey) :
    (session.takeOff key).1.engine.roster.find? other =
      if other = key then none else session.engine.roster.find? other := by
  rw [takeOff]
  split
  · rename_i absent
    split
    · rename_i here
      rw [here, absent]
    · rfl
  · exact SortedMap.find?_erase _ key other

theorem mem_leaving_takeOff {key : ActorKey} {actor : Actor}
    (left : actor ∈ (session.takeOff key).1.engine.leaving) :
    actor ∈ session.engine.leaving ∨ session.engine.roster.find? key = some actor := by
  rw [takeOff] at left
  split at left
  · exact Or.inl left
  · rename_i released found
    rcases List.mem_append.mp left with former | isReleased
    · exact Or.inl former
    · rw [List.mem_singleton.mp isReleased]
      exact Or.inr found

theorem actorsStarted_takeOff (session : Session) (key : ActorKey) :
    (session.takeOff key).1.engine.actorsStarted = session.engine.actorsStarted := by
  rcases session.exists_takeOff_eq key with ⟨roster, leaving, same⟩
  rw [same]

theorem numbered_takeOff (numbered : session.engine.Numbered) (key : ActorKey) :
    (session.takeOff key).1.engine.Numbered := by
  have still : ∀ {other actor}, (session.takeOff key).1.engine.roster.find? other = some actor →
      other ≠ key ∧ session.engine.roster.find? other = some actor := by
    intro other actor present
    rw [find?_takeOff] at present
    split at present
    · cases present
    · rename_i elsewhere
      exact ⟨elsewhere, present⟩
  refine ⟨?_, ?_, ?_⟩
  · intro actor member
    rw [actorsStarted_takeOff]
    exact numbered.bounded actor (mem_takeOff member)
  · intro one other actor another present otherPresent same
    exact numbered.unique one other actor another (still present).2 (still otherPresent).2 same
  · intro other actor present another left
    rcases mem_leaving_takeOff left with former | isReleased
    · exact numbered.apart other actor (still present).2 another former
    · intro same
      exact (still present).1
        (numbered.unique other key actor another (still present).2 isReleased same.symm)

end Session

end Reconciler
