import Reconciler.Proofs.Fleet.Bearings

/-!
# What becomes of rosters

Whatever an engine does besides moving its actors, an actor of the roster was there before, at the
same work and with all that was in its queue, or it is new. Numbers tell actors apart throughout.
-/

namespace Reconciler

/-- The number of the actor that a chore is to deliver a trigger to, if it is to deliver one. -/
def Chore.receiver? : Chore → Option Nat
  | .deliver number _ _ => some number
  | _ => none

namespace Actor

/--
An actor that has heard no less: it is where it was, and nothing is gone from its queue. Callers
that are in line no more have put something there.
-/
structure Hears (former actor : Actor) : Prop where
  number : actor.number = former.number
  key : actor.key = former.key
  isEnding : actor.isEnding = former.isEnding
  stage : actor.stage = former.stage
  status : actor.status = former.status
  queue : former.queue <+: actor.queue
  callers : former.callers ≤ actor.callers ∨ actor.queue ≠ []

variable {former actor last : Actor}

theorem Hears.refl (actor : Actor) : actor.Hears actor :=
  ⟨rfl, rfl, rfl, rfl, rfl, List.prefix_rfl, Or.inl (Nat.le_refl _)⟩

theorem Hears.trans (hears : former.Hears actor) (more : actor.Hears last) :
    former.Hears last where
  number := more.number.trans hears.number
  key := more.key.trans hears.key
  isEnding := more.isEnding.trans hears.isEnding
  stage := more.stage.trans hears.stage
  status := more.status.trans hears.status
  queue := hears.queue.trans more.queue
  callers := by
    rcases more.callers with kept | queued
    · refine hears.callers.imp (fun first => first.trans kept) fun queued isNil => queued ?_
      exact List.prefix_nil.mp (isNil ▸ more.queue)
    · exact Or.inr queued

theorem hears_push (actor : Actor) (trigger : Trigger) : actor.Hears (actor.push trigger) :=
  ⟨rfl, rfl, rfl, rfl, rfl, List.prefix_append _ _, Or.inl (Nat.le_refl _)⟩

theorem hears_nudge (actor : Actor) (capacity : Nat) (trigger : Trigger) :
    actor.Hears (actor.nudge capacity trigger) := by
  rw [nudge]
  split
  · exact actor.hears_push trigger
  · exact .refl actor

theorem mem_queue_push {actor : Actor} {trigger other : Trigger}
    (member : other ∈ (actor.push trigger).queue) : other ∈ actor.queue ∨ other = trigger :=
  (List.mem_append.mp member).imp_right List.mem_singleton.mp

theorem mem_queue_nudge {actor : Actor} {capacity : Nat} {trigger other : Trigger}
    (member : other ∈ (actor.nudge capacity trigger).queue) :
    other ∈ actor.queue ∨ other = trigger := by
  rw [nudge] at member
  split at member
  · exact mem_queue_push member
  · exact Or.inl member

theorem callers_nudge (actor : Actor) (capacity : Nat) (trigger : Trigger) :
    (actor.nudge capacity trigger).callers = actor.callers := by
  rw [nudge]
  split <;> rfl

end Actor

namespace Engine

variable {engine : Engine}

theorem sameNumbers_updateActor {number : Nat} {update : Actor → Actor}
    (numbers : ∀ former, (update former).number = former.number) :
    engine.SameNumbers (engine.updateActor number update) := by
  refine ⟨?_, ?_, rfl⟩
  · intro key actor present
    rw [find?_updateActor, Option.map_eq_some_iff] at present
    rcases present with ⟨former, found, rfl⟩
    refine ⟨former, found, ?_⟩
    split
    · exact numbers former
    · rfl
  · intro actor left
    rcases List.mem_map.mp left with ⟨former, found, rfl⟩
    refine ⟨former, found, ?_⟩
    split
    · exact numbers former
    · rfl

theorem SameNumbers.refl (engine : Engine) : engine.SameNumbers engine :=
  (Keeps.refl engine).sameNumbers

end Engine

namespace Session

variable {deed : Deed} {doing : Option Chore} {session next : Session} {key : ActorKey}
  {actor : Actor} {offered : List Command} {orders : List Order}

/-- To deliver a trigger changes the actor that it is for, if there is one. -/
theorem deliver_cases (session : Session) (number : Nat) (trigger : Trigger) (isWaiting : Bool) :
    (session.engine.actor? number = none ∧
      session.deliver number trigger isWaiting = (session, [])) ∨
    ∃ update : Actor → Actor, (∀ former : Actor, former.Hears (update former)) ∧
      (∀ former : Actor, ∀ other ∈ (update former).queue,
        other ∈ former.queue ∨ other = trigger) ∧
      (session.deliver number trigger isWaiting).1 =
        { session with engine := session.engine.updateActor number update } ∧
      ((isWaiting = true ∧ ∀ former, (update former).callers = former.callers - 1) ∨
        (isWaiting = false ∧ ∀ former, (update former).callers = former.callers) ∨
        (isWaiting = false ∧ (∀ former, (update former).callers = former.callers + 1) ∧
          (session.deliver number trigger isWaiting).2 = [.deliver number trigger true])) := by
  rw [deliver]
  cases found : session.engine.actor? number with
  | none => exact Or.inl ⟨rfl, rfl⟩
  | some actor =>
      right
      simp only
      split
      · rename_i waiting
        refine ⟨_, fun former => ?_, fun former other => ?_, rfl, Or.inl ⟨waiting, fun _ => rfl⟩⟩
        · exact ⟨rfl, rfl, rfl, rfl, rfl, List.prefix_append _ _, Or.inr
            (List.append_ne_nil_of_right_ne_nil _ (List.cons_ne_nil _ _))⟩
        · exact Actor.mem_queue_push
      · rename_i waiting
        have isNot := Bool.eq_false_of_not_eq_true waiting
        split
        · exact ⟨_, fun former => former.hears_push trigger,
            fun former other => Actor.mem_queue_push, rfl, Or.inr (Or.inl ⟨isNot, fun _ => rfl⟩)⟩
        · refine ⟨_, fun former => ?_, fun former other => ?_, rfl,
            Or.inr (Or.inr ⟨isNot, fun _ => rfl, rfl⟩)⟩
          · exact ⟨rfl, rfl, rfl, rfl, rfl, List.prefix_rfl, Or.inl (Nat.le_succ _)⟩
          · exact Or.inl

theorem Service.actorsStarted (service : Service deed doing session offered orders next) :
    session.engine.actorsStarted ≤ next.engine.actorsStarted := by
  cases service with
  | dispatches dispatches => exact Nat.le_of_eq dispatches.crew.actorsStarted.symm
  | @hires key absent intent active =>
      rw [Engine.ensureActor, absent]
      exact Nat.le_succ _
  | @delivers number trigger isWaiting _ =>
      rcases session.exists_deliver_eq number trigger isWaiting with ⟨roster, leaving, same⟩
      rw [same]
  | takesOff key => rw [actorsStarted_takeOff]
  | _ => exact Nat.le_refl _

theorem Serves.actorsStarted (serves : session.Serves deed doing offered orders next) :
    session.engine.actorsStarted ≤ next.engine.actorsStarted := by
  induction serves with
  | refl _ => exact Nat.le_refl _
  | head service _ ih => exact service.actorsStarted.trans ih

theorem Service.numbered (service : Service deed doing session offered orders next)
    (numbered : session.engine.Numbered) : next.engine.Numbered := by
  cases service with
  | dispatches dispatches => exact numbered.of_sameNumbers dispatches.crew.keeps.sameNumbers
  | nudges test background =>
      exact numbered.of_sameNumbers (Engine.keeps_nudgeAll background _).sameNumbers
  | hires absent active => exact numbered.ensureActor absent _
  | @delivers number trigger isWaiting does =>
      rcases session.deliver_cases number trigger isWaiting with
        ⟨_, same⟩ | ⟨update, hears, _, same, _⟩
      · rwa [same]
      · rw [same]
        exact numbered.of_sameNumbers
          (Engine.sameNumbers_updateActor fun former => (hears former).number)
  | takesOff key => exact numbered_takeOff numbered key
  | recovers => exact numbered.of_sameNumbers ⟨(Engine.SameNumbers.refl _).roster,
      (Engine.SameNumbers.refl _).leaving, rfl⟩
  | arranges => exact numbered.of_sameNumbers ⟨(Engine.SameNumbers.refl _).roster,
      (Engine.SameNumbers.refl _).leaving, rfl⟩
  | _ => exact numbered

theorem Serves.numbered (serves : session.Serves deed doing offered orders next)
    (numbered : session.engine.Numbered) : next.engine.Numbered := by
  induction serves with
  | refl _ => exact numbered
  | head service _ ih => exact ih (service.numbered numbered)

/-- A trigger may be put into the queue of an actor while a chore is done. -/
def Brings (doing : Option Chore) (number : Nat) (trigger : Trigger) : Prop :=
  trigger.isBackground = true ∨ ∃ isWaiting, doing = some (.deliver number trigger isWaiting)

/-- Where an actor of the roster comes from; only a delivery changes the number of its callers. -/
inductive Recalls (session : Session) (doing : Option Chore) (key : ActorKey) (actor : Actor) : Prop
  /-- It was there before. -/
  | stays {former : Actor} (found : session.engine.roster.find? key = some former)
      (hears : former.Hears actor)
      (queue : ∀ trigger ∈ actor.queue, trigger ∈ former.queue ∨ Brings doing actor.number trigger)
      (callers : doing.bind Chore.receiver? ≠ some actor.number → actor.callers = former.callers)
  /-- It is new. -/
  | starts (isNew : session.engine.actorsStarted ≤ actor.number) (isKey : actor.key = key)
      (lasting : actor.isEnding = false)
      (queue : ∀ trigger ∈ actor.queue, Brings doing actor.number trigger)
      (callers : doing.bind Chore.receiver? ≠ some actor.number → actor.callers = 0)

theorem recalls_of_same (same : session.engine.roster.find? key = some actor) :
    session.Recalls doing key actor :=
  .stays same (.refl actor) (fun _ => Or.inl) fun _ => rfl

theorem Service.recalls (service : Service deed doing session offered orders next)
    (present : next.engine.roster.find? key = some actor) : session.Recalls doing key actor := by
  cases service with
  | dispatches dispatches =>
      rw [dispatches.crew.roster] at present
      exact recalls_of_same present
  | nudges test background =>
      rw [Engine.nudgeAll, SortedMap.find?_mapValues, Option.map_eq_some_iff] at present
      rcases present with ⟨former, found, isActor⟩
      split at isActor
      · subst isActor
        refine .stays found (former.hears_nudge _ _) (fun other member => ?_)
          fun _ => former.callers_nudge _ _
        refine (Actor.mem_queue_nudge member).imp_right ?_
        rintro rfl
        exact Or.inl background
      · subst isActor
        exact recalls_of_same found
  | @hires other absent intent active =>
      rw [Engine.ensureActor, absent, SortedMap.find?_insert] at present
      split at present
      · rename_i isKey
        obtain rfl := Option.some.inj present
        exact .starts (Nat.le_refl _) isKey.symm rfl (fun _ member => by cases member) fun _ => rfl
      · exact recalls_of_same present
  | @delivers number trigger isWaiting does =>
      rcases session.deliver_cases number trigger isWaiting with
        ⟨_, same⟩ | ⟨update, hears, gets, same, _⟩
      · rw [same] at present
        exact recalls_of_same present
      · rw [same, Engine.find?_updateActor, Option.map_eq_some_iff] at present
        rcases present with ⟨former, found, isActor⟩
        split at isActor
        · rename_i isNumber
          subst isActor
          have sameNumber := (hears former).number.trans isNumber
          refine .stays found (hears former) (fun other member => ?_) fun spares => ?_
          · refine (gets former other member).imp_right ?_
            rintro rfl
            exact Or.inr ⟨isWaiting, by rw [does, sameNumber]⟩
          · rw [sameNumber, does] at spares
            exact absurd rfl spares
        · subst isActor
          exact recalls_of_same found
  | takesOff other =>
      rw [find?_takeOff] at present
      split at present
      · cases present
      · exact recalls_of_same present
  | _ => exact recalls_of_same present

theorem Serves.recalls (serves : session.Serves deed doing offered orders next)
    (present : next.engine.roster.find? key = some actor) : session.Recalls doing key actor := by
  induction serves with
  | refl _ => exact recalls_of_same present
  | head service _ ih =>
      cases ih present with
      | @stays middle found hears queue callers =>
          have earlier := service.recalls found
          rw [hears.number] at queue callers
          cases earlier with
          | stays formerFound before queueBefore callersBefore =>
              refine .stays formerFound (before.trans hears) (fun trigger member => ?_)
                fun spares => ?_
              · rw [hears.number]
                exact (queue trigger member).elim (queueBefore trigger) Or.inr
              · rw [hears.number] at spares
                rw [callers spares, callersBefore spares]
          | starts isNew isKey lasting queueBefore callersBefore =>
              refine .starts (hears.number ▸ isNew) (hears.key.trans isKey)
                (hears.isEnding.trans lasting) (fun trigger member => ?_) fun spares => ?_
              · rw [hears.number]
                exact (queue trigger member).elim (queueBefore trigger) id
              · rw [hears.number] at spares
                rw [callers spares, callersBefore spares]
      | starts isNew isKey lasting queue callers =>
          exact .starts (service.actorsStarted.trans isNew) isKey lasting queue callers

end Session

end Reconciler
