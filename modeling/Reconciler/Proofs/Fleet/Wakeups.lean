import Mathlib.Data.List.Infix
import Reconciler.Proofs.Fleet.Lines

/-!
# Wake-ups

After a change of a lattice, an actor that the change concerns looks at the lattice again. Of the
triggers that are to wake it, some find its queue full and are dropped, and others are taken
together with earlier ones; but none is lost, whatever happens while the actor takes its steps.
-/

namespace Reconciler

/-- Whether a change of a lattice concerns the application of an actor. -/
def ChangeScope.concerns (scope : ChangeScope) (id : LatticeId) (key : ActorKey) : Bool :=
  key.lattice == id &&
    match scope with
    | .lattice => true
    | .app name => key.app == name

/-- There is room for a trigger in an empty queue. -/
theorem Engine.capacity_pos (engine : Engine) : 0 < engine.capacity :=
  Nat.lt_of_lt_of_le Nat.one_pos (Nat.le_max_right _ _)

/-- An actor of the roster looks at its lattice when it has taken its triggers. -/
structure Session.Attends (session : Session) (key : ActorKey) (actor : Actor) : Prop where
  healthy : session.engine.health.isHealthy = true
  owns : session.engine.owns key.app = true
  present : session.engine.roster.find? key = some actor
  awake : actor.intent ≠ .dormant

instance (session : Session) (key : ActorKey) (actor : Actor) :
    Decidable (session.Attends key actor) :=
  decidable_of_iff
    (session.engine.health.isHealthy = true ∧ session.engine.owns key.app = true ∧
      session.engine.roster.find? key = some actor ∧ actor.intent ≠ .dormant)
    ⟨fun ⟨healthy, owns, present, awake⟩ => ⟨healthy, owns, present, awake⟩,
      fun attends => ⟨attends.healthy, attends.owns, attends.present, attends.awake⟩⟩

theorem Session.Attends.mayLook {session : Session} {key : ActorKey} {actor : Actor}
    (attends : session.Attends key actor) (isKey : actor.key = key) :
    session.mayLook actor = true := by
  simp [Session.mayLook, attends.awake, attends.healthy, isKey, attends.owns]

namespace Session

variable {session : Session} {event : LatticeEvent} {scope : ChangeScope} {key : ActorKey}
  {actor : Actor}

/-- What hosts report counts for commands; the actors are not changed by it. -/
theorem roster_observe (session : Session) (event : LatticeEvent) :
    (session.observe event).engine.roster = session.engine.roster ∧
      (session.observe event).engine.capacity = session.engine.capacity := by
  rw [observe]
  split <;> exact ⟨rfl, rfl⟩

/-- A change nudges the actors that it concerns. -/
theorem find?_ingest (changed : (session.ingest event).2 = .changed scope)
    (concerns : scope.concerns event.lattice key = true)
    (present : session.engine.roster.find? key = some actor) :
    (session.ingest event).1.engine.roster.find? key =
      some (actor.nudge session.engine.capacity .observed) := by
  rcases applied : session.backend.projector.apply event with ⟨projector, answer⟩
  have isChange : answer = .changed scope := by
    simp only [ingest, applied] at changed
    split at changed <;> exact changed
  subst isChange
  simp only [ingest, applied, notify, Engine.nudgeAll, SortedMap.find?_mapValues]
  rw [(roster_observe _ event).1, (roster_observe _ event).2, present, Option.map_some]
  exact congrArg some (if_pos concerns)

end Session

namespace SlowMotion

/-- In an act, an actor of a member takes a snapshot of its lattice. -/
def Looks (slow : SlowMotion) (act : Act) (index number : Nat) : Prop :=
  act = .moveActor index number ∧ slow.pace index number = .looking ∧
    ∃ session actor, slow.world.fleet.session? index = some session ∧
      session.engine.actor? number = some actor ∧ actor.isEnding = false ∧
      session.mayLook actor = true

instance (slow : SlowMotion) (act : Act) (index number : Nat) :
    Decidable (slow.Looks act index number) :=
  decidable_of_iff
    (act = .moveActor index number ∧ slow.pace index number = .looking ∧
      ∃ session ∈ slow.world.fleet.session? index,
        ∃ actor ∈ session.engine.actor? number,
          actor.isEnding = false ∧ session.mayLook actor = true)
    (by simp only [Looks, Option.mem_def, exists_and_left])

/-- An actor of a member attends to its lattice. -/
def Attends (slow : SlowMotion) (index : Nat) (key : ActorKey) (number : Nat) : Prop :=
  ∃ session actor, slow.world.fleet.session? index = some session ∧
    session.Attends key actor ∧ actor.number = number

instance (slow : SlowMotion) (index : Nat) (key : ActorKey) (number : Nat) :
    Decidable (slow.Attends index key number) :=
  decidable_of_iff
    (∃ session ∈ slow.world.fleet.session? index,
      ∃ actor ∈ session.engine.roster.find? key, session.Attends key actor ∧ actor.number = number)
    ⟨fun ⟨session, found, actor, _, attends, isNumber⟩ =>
        ⟨session, actor, found, attends, isNumber⟩,
      fun ⟨session, actor, found, attends, isNumber⟩ =>
        ⟨session, found, actor, attends.present, attends, isNumber⟩⟩

/-- An actor has received a trigger for which it has not looked at its lattice yet. -/
def HasReceived (slow : SlowMotion) (index : Nat) (actor : Actor) : Prop :=
  (∃ deadline, actor.stage = .debouncing deadline) ∨ slow.pace index actor.number ≠ .waiting

/-- An actor has received a trigger, or has one in its queue or somebody in line with one. -/
def IsRoused (slow : SlowMotion) (index : Nat) (actor : Actor) : Prop :=
  actor.queue ≠ [] ∨ 0 < actor.callers ∨ slow.HasReceived index actor

variable {slow : SlowMotion} {act : Act} {index number : Nat} {session next : Session}
  {key : ActorKey} {actor later : Actor}

theorem Attends.of_found (attends : slow.Attends index key number)
    (found : slow.world.fleet.session? index = some session)
    (present : session.engine.roster.find? key = some actor) : session.Attends key actor := by
  rcases attends with ⟨other, another, otherFound, attends, _⟩
  obtain rfl := Option.some.inj (otherFound.symm.trans found)
  obtain rfl := Option.some.inj (attends.present.symm.trans present)
  exact attends

/-- The pace of an actor changes only with its own steps. -/
theorem pace_after (others : act ≠ .moveActor index number) :
    (slow.after act).pace index number = slow.pace index number := by
  by_cases moves : ∃ member another, act = .moveActor member another
  · rcases moves with ⟨member, another, rfl⟩
    rw [after, step]
    split
    · rfl
    · split
      · rfl
      · refine if_neg ?_
        rintro ⟨rfl, rfl⟩
        exact others rfl
  · rw [after_of_still fun member number same => moves ⟨member, number, same⟩]

/-- An actor that has heard no less is as much roused as before, unless it steps itself. -/
theorem IsRoused.of_hears (roused : slow.IsRoused index actor) (hears : actor.Hears later)
    (others : act ≠ .moveActor index actor.number) : (slow.after act).IsRoused index later := by
  rcases roused with queued | called | received
  · refine Or.inl fun isNil => queued ?_
    exact List.prefix_nil.mp (isNil ▸ hears.queue)
  · rcases hears.callers with kept | queued
    · exact Or.inr (Or.inl (Nat.lt_of_lt_of_le called kept))
    · exact Or.inl queued
  · right
    right
    rw [HasReceived, hears.stage, hears.number, pace_after others]
    exact received

/-- A step of its own leaves an actor roused, unless it ends or looks. -/
theorem IsRoused.of_step {pace : Pace} {state : Session × Pace}
    (roused : slow.IsRoused index actor) (paced : slow.pace index actor.number = pace)
    (step : session.Step actor pace state) (lasting : actor.isEnding = false)
    (unlooked : pace ≠ .looking) (present : session.engine.roster.find? key = some actor)
    (presentNext : state.1.engine.roster.find? key = some later)
    (pacedNext : (slow.after act).pace index actor.number = state.2) :
    (slow.after act).IsRoused index later := by
  have isMoved : ∀ {next : Session} {moved : Actor}, session.engine.SameCrew next.engine →
      actor.SameSeat moved → (next.putActor moved).engine.roster.find? key = some later →
      later = moved := by
    intro next moved crew seat found
    exact Option.some.inj (found.symm.trans (Session.find?_putActor_self crew present seat.number))
  have isStill : session.engine.roster.find? key = some later → later = actor :=
    fun found => Option.some.inj (found.symm.trans present)
  -- An actor at a pace other than waiting has received a trigger.
  have moving : ∀ {moved : Actor}, actor.SameSeat moved → state.2 ≠ .waiting →
      (slow.after act).IsRoused index moved := by
    intro moved seat awake
    refine Or.inr (Or.inr (Or.inr ?_))
    rwa [seat.number, pacedNext]
  cases step with
  | waits =>
      obtain rfl := isStill presentNext
      refine roused.imp_right fun roused => roused.imp_right fun received => ?_
      rcases received with debouncing | awake
      · exact Or.inl debouncing
      · exact absurd paced awake
  | absorbs seat stage =>
      obtain rfl := isMoved (.refl _) seat presentNext
      exact Or.inr (Or.inr (Or.inl ⟨_, stage⟩))
  | resumes sending works =>
      obtain rfl := isMoved works.crew works.seat presentNext
      rcases roused with queued | called | ⟨deadline, debouncing⟩ | awake
      · exact Or.inl (works.queue ▸ queued)
      · exact Or.inr (Or.inl (works.seat.callers ▸ called))
      · cases sending.symm.trans debouncing
      · exact absurd paced awake
  | receives left seat =>
      obtain rfl := isMoved (.refl _) seat presentNext
      exact moving seat fun same => by cases same
  | takes left seat =>
      obtain rfl := isMoved (.refl _) seat presentNext
      exact moving seat fun same => by cases same
  | turns left =>
      obtain rfl := isStill presentNext
      exact moving (.refl later) fun same => by cases same
  | ends ending => cases lasting.symm.trans ending
  | looks _ works => exact absurd rfl unlooked

/-- An actor of the roster that stays there hears no less in an act that is no step of its own. -/
theorem hears_after (tidy : slow.Tidy index session)
    (found : slow.world.fleet.session? index = some session)
    (present : session.engine.roster.find? key = some actor)
    (others : act ≠ .moveActor index actor.number)
    (foundNext : (slow.after act).world.fleet.session? index = some next)
    (presentNext : next.engine.roster.find? key = some later) (same : later.number = actor.number) :
    actor.Hears later := by
  rcases shift_after foundNext with ⟨former, formerFound, shift⟩
  obtain rfl := Option.some.inj (formerFound.symm.trans found)
  cases shift with
  | @steps number other moves isOther =>
      have stepped := former.step_cases other (slow.pace index number)
      rcases stepped.recalls tidy.numbered isOther presentNext with ⟨before, beforeFound, _, kept⟩
      obtain rfl := Option.some.inj (beforeFound.symm.trans present)
      rw [kept fun isNumber => others (isNumber ▸ moves)]
      exact .refl before
  | acts about still =>
      rcases former.serves_afterDeed still with ⟨orders, served, _⟩
      cases served.recalls presentNext with
      | stays beforeFound hears =>
          obtain rfl := Option.some.inj (beforeFound.symm.trans present)
          exact hears
      | starts isNew =>
          have bounded := tidy.numbered.lt_of_find? present
          rw [same] at isNew
          exact absurd bounded (Nat.not_lt.mpr isNew)
  | rests sameEngine =>
      rw [sameEngine, present] at presentNext
      obtain rfl := Option.some.inj presentNext
      exact .refl actor

/-- As long as an actor takes no snapshot, nothing that happens leaves it without a trigger. -/
theorem IsRoused.after (roused : slow.IsRoused index actor) (tidy : slow.Tidy index session)
    (found : slow.world.fleet.session? index = some session)
    (attends : session.Attends key actor) (unlooked : ¬slow.Looks act index actor.number)
    (foundNext : (slow.after act).world.fleet.session? index = some next)
    (present : next.engine.roster.find? key = some later) (same : later.number = actor.number) :
    (slow.after act).IsRoused index later := by
  have isActor := tidy.numbered.actor?_eq_some attends.present
  have lasting := (tidy.lasting key actor attends.present).lasting
  by_cases own : act = .moveActor index actor.number
  · subst own
    have stepped := session.step_cases actor (slow.pace index actor.number)
    have isPlaced := step_of_found found isActor
    have sameTime := session.now_step actor (slow.pace index actor.number)
    rw [isPlaced, place, Fleet.session?_putSession_self found sameTime] at foundNext
    obtain rfl := Option.some.inj foundNext
    refine roused.of_step rfl stepped lasting ?_ attends.present present ?_
    · intro looking
      refine unlooked ⟨rfl, looking, session, actor, found, isActor, lasting, ?_⟩
      exact attends.mayLook (tidy.keyed key actor attends.present)
    · rw [isPlaced, place]
      exact if_pos ⟨rfl, rfl⟩
  · exact roused.of_hears (hears_after tidy found attends.present own foundNext present same) own

/-- A trigger that finds no room in a queue finds one there, or a caller to whom a place is due. -/
theorem isRoused_nudge {capacity : Nat} (roomy : 0 < capacity) (actor : Actor) (trigger : Trigger) :
    slow.IsRoused index (actor.nudge capacity trigger) := by
  rw [Actor.nudge]
  split
  · exact Or.inl (List.append_ne_nil_of_right_ne_nil _ (List.cons_ne_nil _ _))
  · rename_i full
    simp only [Actor.hasRoom, decide_eq_true_eq, Nat.not_lt] at full
    rcases Nat.eq_zero_or_pos actor.callers with nobody | called
    · rw [nobody, Nat.add_zero] at full
      exact Or.inl (List.ne_nil_of_length_pos (roomy.trans_le full))
    · exact Or.inr (Or.inl called)

/-- A change rouses every actor of the roster that it concerns. -/
theorem isRoused_of_changed {event : LatticeEvent} {scope : ChangeScope}
    (found : slow.world.fleet.session? index = some session)
    (changed : (session.ingest event).2 = .changed scope)
    (concerns : scope.concerns event.lattice key = true)
    (present : session.engine.roster.find? key = some actor) :
    ∃ next later, (slow.after (.ask index (.ingest event))).world.fleet.session? index = some next ∧
      next.engine.roster.find? key = some later ∧ later.number = actor.number ∧
        (slow.after (.ask index (.ingest event))).IsRoused index later := by
  have about : slow.world.deed? (.ask index (.ingest event)) =
    some (index, .answer (.ingest event)) := rfl
  have sameTime : (session.ingest event).1.now = session.now :=
    session.now_afterDeed (.answer (.ingest event))
  refine ⟨(session.ingest event).1, actor.nudge session.engine.capacity .observed, ?_, ?_, ?_,
    isRoused_nudge session.engine.capacity_pos actor _⟩
  · rw [after_of_still (fun _ _ same => by cases same)]
    simp only [World.after_of_deed? about found]
    exact Fleet.session?_putSession_self found sameTime
  · exact Session.find?_ingest changed concerns present
  · exact (actor.hears_nudge _ _).number

/-- An actor that is roused stays so for as long as it attends and takes no snapshot. -/
theorem isRoused_afterAll {world : World} (isFresh : world.IsFresh) {first more : List Act}
    (found : ((new world).afterAll first).world.fleet.session? index = some session)
    (present : session.engine.roster.find? key = some actor)
    (roused : ((new world).afterAll first).IsRoused index actor)
    (attends : ∀ done, done <+: more →
      ((new world).afterAll (first ++ done)).Attends index key actor.number)
    (unlooked : ∀ done act, done ++ [act] <+: more →
      ¬((new world).afterAll (first ++ done)).Looks act index actor.number) :
    ∃ next later, ((new world).afterAll (first ++ more)).world.fleet.session? index = some next ∧
      next.engine.roster.find? key = some later ∧ later.number = actor.number ∧
        ((new world).afterAll (first ++ more)).IsRoused index later := by
  induction more using List.reverseRecOn with
  | nil =>
      rw [List.append_nil]
      exact ⟨session, actor, found, present, rfl, roused⟩
  | append_singleton more act ih =>
      have sooner : more <+: more ++ [act] := List.prefix_append more [act]
      rcases ih (fun done part => attends done (part.trans sooner))
          fun done other part => unlooked done other (part.trans sooner) with
        ⟨middle, before, middleFound, beforePresent, same, rousedStill⟩
      have attendsStill := (attends more sooner).of_found middleFound beforePresent
      rcases attends (more ++ [act]) List.prefix_rfl with
        ⟨next, later, nextFound, attendsNext, isLater⟩
      have unseen := unlooked more act List.prefix_rfl
      rw [← same] at unseen
      rw [← List.append_assoc, afterAll_concat] at nextFound ⊢
      exact ⟨next, later, nextFound, attendsNext.present, isLater,
        rousedStill.after (tidy_afterAll isFresh middleFound) middleFound attendsStill unseen
          nextFound attendsNext.present (isLater.trans same.symm)⟩

/--
A change rouses an actor that it concerns. However the acts of the fleet and the steps of the actor
follow on each other from then on, and whatever the capacity of queues, the size of batches and the
time of waiting for more are: as long as the actor attends to its lattice and has taken no snapshot
of it, a trigger is in its queue, or an operator's order is in line for the queue and may be put
there at once, or the actor has received a trigger and is yet to take the snapshot.
-/
theorem no_wakeup_lost {world : World} (isFresh : world.IsFresh) {first more : List Act}
    {event : LatticeEvent} {scope : ChangeScope}
    (found : ((new world).afterAll first).world.fleet.session? index = some session)
    (changed : (session.ingest event).2 = .changed scope)
    (concerns : scope.concerns event.lattice key = true)
    (present : session.engine.roster.find? key = some actor)
    (attends : ∀ done, done <+: more →
      ((new world).afterAll (first ++ [.ask index (.ingest event)] ++ done)).Attends index key
        actor.number)
    (unlooked : ∀ done act, done ++ [act] <+: more →
      ¬((new world).afterAll (first ++ [.ask index (.ingest event)] ++ done)).Looks act index
        actor.number) :
    let last := (new world).afterAll (first ++ [.ask index (.ingest event)] ++ more)
    ∃ next later, last.world.fleet.session? index = some next ∧
      next.engine.roster.find? key = some later ∧ later.number = actor.number ∧
      (later.queue ≠ [] ∨
        (∃ trigger rest, trigger.isOrder = true ∧
          ⟨index, .deliver actor.number trigger true :: rest⟩ ∈ last.world.errands ∧
            next.canDo (.deliver actor.number trigger true) = true) ∨
        last.HasReceived index later) := by
  rcases isRoused_of_changed found changed concerns present with
    ⟨roused, sooner, rousedFound, soonerPresent, same, isRoused⟩
  rw [← afterAll_concat] at rousedFound isRoused
  rw [← same] at attends unlooked ⊢
  rcases isRoused_afterAll isFresh rousedFound soonerPresent isRoused attends unlooked with
    ⟨next, later, nextFound, laterPresent, isLater, stillRoused⟩
  refine ⟨next, later, nextFound, laterPresent, isLater, ?_⟩
  have tidy := tidy_afterAll isFresh nextFound
  rcases stillRoused with queued | called | received
  · exact Or.inl queued
  · by_cases empty : later.queue = []
    · right
      left
      have waits := Nat.lt_of_lt_of_le called (tidy.lined key later laterPresent)
      rcases World.exists_of_inLine_pos waits with ⟨trigger, rest, member⟩
      rw [isLater] at member
      have isActor := tidy.numbered.actor?_eq_some laterPresent
      rw [isLater] at isActor
      refine ⟨trigger, rest, ?_, member, ?_⟩
      · by_contra unordered
        have aside := tidy.errands _ member rfl _ List.mem_cons_self _ trigger true rfl
          (by simpa using unordered)
        exact aside.2 key later laterPresent isLater
      · simp [Session.canDo, isActor, Actor.hasPlace, empty, next.engine.capacity_pos]
    · exact Or.inl empty
  · exact Or.inr (Or.inr received)

/--
A queue that holds one trigger has no room for a second one. The actor takes the first and is about
to look at its lattice, where it will see the change as well for which it got no trigger.
-/
theorem no_wakeup_lost_of_full_queue :
    let started (host : String) : LatticeEvent :=
      ⟨⟨"prod"⟩, ⟨host⟩, 1, ⟨0, 0⟩, .hostStarted ∅ none⟩
    let manifest : Manifest := (Manifest.new ⟨"shop"⟩ "v1").withComponent
      ((Component.new "api" .component "registry/api:1").withTrait (.spreadScaler (.new 1)))
    let config : ControlConfig := { ControlConfig.development with
      reconcile := { ControlConfig.development.reconcile with channelCapacity := 1 } }
    let fresh : World := .new ⟨0, ⟨0, 0⟩⟩ [⟨.new 0 config .new none (some .everything), none⟩]
    let first : List Act :=
      [.ask 0 (.submit manifest), .ask 0 (.deploy ⟨"shop"⟩ none ⟨"prod"⟩), .carryOn 1,
        .moveActor 0 0, .ask 0 (.ingest (started "host-a"))]
    let event : LatticeEvent := started "host-b"
    let more : List Act := [.moveActor 0 0, .moveActor 0 0]
    let key : ActorKey := ⟨⟨"prod"⟩, ⟨"shop"⟩⟩
    fresh.IsFresh ∧ ∃ session actor,
      ((new fresh).afterAll first).world.fleet.session? 0 = some session ∧
      (session.ingest event).2 = .changed .lattice ∧
      ChangeScope.concerns .lattice event.lattice key = true ∧
      session.engine.roster.find? key = some actor ∧ actor.number = 0 ∧
      actor.queue = [.observed] ∧
      (∀ done, done <+: more →
        ((new fresh).afterAll (first ++ [.ask 0 (.ingest event)] ++ done)).Attends 0 key
          actor.number) ∧
      (∀ done act, done ++ [act] <+: more →
        ¬((new fresh).afterAll (first ++ [.ask 0 (.ingest event)] ++ done)).Looks act 0
          actor.number) ∧
      ∃ next later,
        ((new fresh).afterAll (first ++ [.ask 0 (.ingest event)] ++ more)).world.fleet.session? 0 =
          some next ∧
        next.engine.roster.find? key = some later ∧ later.queue = [] ∧
        ((new fresh).afterAll (first ++ [.ask 0 (.ingest event)] ++ more)).HasReceived 0 later := by
  intro started manifest config fresh first event more key
  have isFresh : fresh.IsFresh := World.isFresh_new_singleton
  have concerns : ChangeScope.concerns .lattice event.lattice key = true := by decide +kernel
  have known : (((new fresh).afterAll first).world.fleet.session? 0).any (fun session =>
      (session.ingest event).2 == .changed .lattice &&
        (session.engine.roster.find? key).any fun actor =>
          actor.number == 0 && actor.queue == [.observed]) = true := by decide +kernel
  rcases (Option.any_eq_true _ _).mp known with ⟨session, found, known⟩
  rw [Bool.and_eq_true, beq_iff_eq, Option.any_eq_true] at known
  rcases known with ⟨changed, actor, present, known⟩
  rw [Bool.and_eq_true, beq_iff_eq, beq_iff_eq] at known
  have throughout : ∀ done ∈ more.inits,
      ((new fresh).afterAll (first ++ [.ask 0 (.ingest event)] ++ done)).Attends 0 key 0 := by
    decide +kernel
  have never : ∀ part ∈ more.inits, ∀ act ∈ part.getLast?,
      ¬((new fresh).afterAll (first ++ [.ask 0 (.ingest event)] ++ part.dropLast)).Looks act 0
        0 := by decide +kernel
  have attends : ∀ done, done <+: more →
      ((new fresh).afterAll (first ++ [.ask 0 (.ingest event)] ++ done)).Attends 0 key
        actor.number := by
    rw [known.1]
    exact fun done part => throughout done ((List.mem_inits done more).mpr part)
  have unlooked : ∀ done act, done ++ [act] <+: more →
      ¬((new fresh).afterAll (first ++ [.ask 0 (.ingest event)] ++ done)).Looks act 0
        actor.number := by
    intro done act part
    have isPart := never (done ++ [act]) ((List.mem_inits _ more).mpr part) act
    rw [List.getLast?_concat, List.dropLast_concat] at isPart
    rw [known.1]
    exact isPart rfl
  have drained : (((new fresh).afterAll
      (first ++ [.ask 0 (.ingest event)] ++ more)).world.fleet.session? 0).all (fun next =>
        (next.engine.roster.find? key).all fun later => later.queue.isEmpty) = true := by
    decide +kernel
  have idle : ((new fresh).afterAll (first ++ [.ask 0 (.ingest event)] ++ more)).world.errands.all
      (fun errand => errand.chores.all fun chore => chore.receiver?.isNone) = true := by
    decide +kernel
  rcases no_wakeup_lost isFresh found changed concerns present attends unlooked with
    ⟨next, later, nextFound, laterPresent, _, outcome⟩
  rw [nextFound, Option.all_some, laterPresent, Option.all_some, List.isEmpty_iff] at drained
  refine ⟨isFresh, session, actor, found, changed, concerns, present, known.1, known.2, attends,
    unlooked, next, later, nextFound, laterPresent, drained, ?_⟩
  rcases outcome with queued | ⟨trigger, rest, _, inLine, _⟩ | received
  · exact absurd drained queued
  · have receives := List.all_eq_true.mp (List.all_eq_true.mp idle _ inLine) _ List.mem_cons_self
    cases receives
  · exact received

/--
The queue of an actor holds one trigger, and a second deployment is in line for it. The actor takes
the first trigger and its snapshot. The place in the queue is due to the one in line, so that a
change that comes now puts no trigger there.
-/
theorem unnudged_while_order_in_line :
    let manifest : Manifest := (Manifest.new ⟨"shop"⟩ "v1").withComponent
      ((Component.new "api" .component "registry/api:1").withTrait (.spreadScaler (.new 1)))
    let config : ControlConfig := { ControlConfig.development with
      reconcile := { ControlConfig.development.reconcile with channelCapacity := 1 } }
    let fresh : World := .new ⟨0, ⟨0, 0⟩⟩ [⟨.new 0 config .new none (some .everything), none⟩]
    let deploy : Act := .ask 0 (.deploy ⟨"shop"⟩ none ⟨"prod"⟩)
    let first : List Act :=
      [.ask 0 (.submit manifest), deploy, .carryOn 1, deploy, .carryOn 2, .moveActor 0 0,
        .moveActor 0 0]
    let event : LatticeEvent := ⟨⟨"prod"⟩, ⟨"host-a"⟩, 1, ⟨0, 0⟩, .hostStarted ∅ none⟩
    let key : ActorKey := ⟨⟨"prod"⟩, ⟨"shop"⟩⟩
    let seen := (new fresh).afterAll (first ++ [.moveActor 0 0])
    let last := seen.after (.ask 0 (.ingest event))
    fresh.IsFresh ∧ ((new fresh).afterAll first).Looks (.moveActor 0 0) 0 0 ∧
      ∃ session next later,
        seen.world.fleet.session? 0 = some session ∧
        (session.ingest event).2 = .changed .lattice ∧
        ChangeScope.concerns .lattice event.lattice key = true ∧
        last.world.fleet.session? 0 = some next ∧ next.Attends key later ∧ later.number = 0 ∧
        later.queue = [] ∧ ¬last.HasReceived 0 later ∧
        ∃ errand ∈ last.world.errands, errand.member = 0 ∧
          errand.chores.head? = some (.deliver 0 .deploy true) := by
  intro manifest config fresh deploy first event key seen last
  have isFresh : fresh.IsFresh := World.isFresh_new_singleton
  have concerns : ChangeScope.concerns .lattice event.lattice key = true := by decide +kernel
  have looks : ((new fresh).afterAll first).Looks (.moveActor 0 0) 0 0 := by decide +kernel
  have changes : (seen.world.fleet.session? 0).any (fun session =>
      (session.ingest event).2 == .changed .lattice) = true := by decide +kernel
  have known : (last.world.fleet.session? 0).any (fun next =>
      (next.engine.roster.find? key).any fun later =>
        later.number == 0 && later.queue.isEmpty && later.stage == .receiving &&
          decide (next.Attends key later)) = true := by decide +kernel
  have waiting : last.pace 0 0 = .waiting := by decide +kernel
  have inLine : ∃ errand ∈ last.world.errands, errand.member = 0 ∧
      errand.chores.head? = some (.deliver 0 .deploy true) := by decide +kernel
  rcases (Option.any_eq_true _ _).mp changes with ⟨session, seenFound, changed⟩
  rcases (Option.any_eq_true _ _).mp known with ⟨next, found, known⟩
  rcases (Option.any_eq_true _ _).mp known with ⟨later, _, known⟩
  simp only [Bool.and_eq_true, beq_iff_eq, List.isEmpty_iff, decide_eq_true_eq] at known
  rcases known with ⟨⟨⟨isNumber, empty⟩, receiving⟩, attends⟩
  have unreceived : ¬last.HasReceived 0 later := by
    rintro (⟨deadline, debouncing⟩ | awake)
    · cases receiving.symm.trans debouncing
    · rw [isNumber] at awake
      exact awake waiting
  exact ⟨isFresh, looks, session, next, later, seenFound, beq_iff_eq.mp changed, concerns, found,
    attends, isNumber, empty, unreceived, inLine⟩

end SlowMotion

end Reconciler
