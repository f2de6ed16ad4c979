import Reconciler.Engine.Cycle

/-!
# What the moves of actors come to

In a move an actor waits on, or goes on with a cycle that waits for the transport, or takes the
triggers in its queue and then ends, stays idle or begins a cycle. `Session.move_cases` takes moves
apart in this way, so that nothing later has to look into them.
-/

namespace Reconciler

namespace Actor

/-- The actor in the part of a cycle in which it dispatches. -/
def dispatching (actor : Actor) : Actor :=
  { actor with status := { actor.status with phase := .dispatching } }

/-- What an actor is like after it has taken triggers from the front of its queue. -/
structure Takes (actor : Actor) (taken : List Trigger) (awake : Actor) : Prop where
  number : awake.number = actor.number
  key : awake.key = actor.key
  stage : awake.stage = actor.stage
  queue : actor.queue = taken ++ awake.queue
  intent : awake.intent = taken.foldl Intent.after actor.intent
  isEnding : awake.isEnding = true ↔ actor.isEnding = true ∨ .shutdown ∈ taken

namespace Takes

variable {actor awake last : Actor} {first rest : List Trigger}

theorem refl (actor : Actor) : actor.Takes [] actor where
  number := rfl
  key := rfl
  stage := rfl
  queue := rfl
  intent := rfl
  isEnding := by simp

theorem trans (takes : actor.Takes first awake) (more : awake.Takes rest last) :
    actor.Takes (first ++ rest) last where
  number := more.number.trans takes.number
  key := more.key.trans takes.key
  stage := more.stage.trans takes.stage
  queue := by rw [takes.queue, more.queue, List.append_assoc]
  intent := by rw [more.intent, takes.intent, List.foldl_append]
  isEnding := by rw [more.isEnding, takes.isEnding, List.mem_append, or_assoc]

end Takes

theorem takes_absorb {actor : Actor} {trigger : Trigger} {queue : List Trigger}
    (queued : actor.queue = trigger :: queue) :
    actor.Takes [trigger] ({ actor with queue := queue }.absorb trigger) where
  number := rfl
  key := rfl
  stage := rfl
  queue := queued
  intent := rfl
  isEnding := by simp [absorb, @eq_comm _ Trigger.shutdown]

theorem takes_drain (actor : Actor) (limit : Nat) :
    actor.Takes (actor.queue.take limit) (actor.drain limit) := by
  have general : ∀ (taken queue : List Trigger) (actor : Actor), actor.queue = taken ++ queue →
      actor.Takes taken (taken.foldl absorb { actor with queue := queue }) := by
    intro taken
    induction taken with
    | nil =>
        intro queue actor queued
        rw [List.nil_append] at queued
        subst queued
        exact .refl actor
    | cons trigger taken ih =>
        intro queue actor queued
        have first := takes_absorb queued
        exact first.trans (ih queue _ rfl)
  exact general _ _ actor (List.take_append_drop limit actor.queue).symm

end Actor

namespace Session

variable (session : Session) (actor : Actor)

/-- The actor as it is before it takes what is in its queue, if it takes that in its next move. -/
def roused? : Option Actor :=
  match actor.stage, actor.queue with
  | .receiving, trigger :: queue =>
    if trigger = .observed ∧ 0 < session.engine.config.reconcile.debounce then none
    else some ({ actor with queue := queue }.absorb trigger)
  | .debouncing deadline, queue =>
    if deadline ≤ session.now.elapsed then some actor
    else
      match queue with
      | [] => none
      | trigger :: queue =>
        if trigger.isBackground then none else some ({ actor with queue := queue }.absorb trigger)
  | _, _ => none

/-- The actor after it has taken what it takes of its queue, if it does so in its next move. -/
def awake? : Option Actor :=
  (session.roused? actor).map fun actor => actor.drain session.engine.config.reconcile.batch

/-- What a move of an actor is, and the session after it. -/
inductive Move : Session → Prop
  /-- There is nothing to do yet. -/
  | waits (asleep : session.awake? actor = none)
      (unanswered : ∀ cycle command answersAt, actor.stage = .sending cycle command answersAt →
        session.now.elapsed < answersAt) :
      Move session
  /-- The actor takes a trigger, and waits for more. -/
  | absorbs {trigger : Trigger} {awake : Actor} {deadline : Nat}
      (asleep : session.awake? actor = none)
      (waiting : ∀ cycle command answersAt, actor.stage ≠ .sending cycle command answersAt)
      (takes : actor.Takes [trigger] awake) (background : trigger.isBackground = true) :
      Move (session.putActor { awake with stage := .debouncing deadline })
  /-- The actor ends. -/
  | ends {awake : Actor} (wakes : session.awake? actor = some awake)
      (ending : awake.isEnding = true) :
      Move { session with engine := session.engine.removeActor awake.number }
  /-- The actor does not look at its application. -/
  | declines {awake : Actor} (wakes : session.awake? actor = some awake)
      (lasting : awake.isEnding = false) (barred : session.mayLook awake = false) :
      Move (session.putActor { awake with stage := .receiving })
  /-- The store does not say what the application is to be. -/
  | fails {awake : Actor} {problem : StoreError} (wakes : session.awake? actor = some awake)
      (lasting : awake.isEnding = false) (allowed : session.mayLook awake = true)
      (unknown : session.missing awake = .error problem) :
      Move ((session.failCycle awake problem).1.putActor (session.failCycle awake problem).2)
  /-- The actor begins a cycle. -/
  | begins {awake : Actor} {actions : List RequiredAction} {next : Acting}
      (wakes : session.awake? actor = some awake) (lasting : awake.isEnding = false)
      (allowed : session.mayLook awake = true) (missing : session.missing awake = .ok actions)
      (leads : session.dispatchAll awake.dispatching actions.length 0 actions = next) :
      Move (next.1.putActor next.2)
  /-- The actor goes on with a cycle for which the transport has taken its time. -/
  | resumes {cycle : Cycle} {command : Command} {answersAt : Nat} {next : Acting}
      (sending : actor.stage = .sending cycle command answersAt)
      (answered : answersAt ≤ session.now.elapsed)
      (leads : session.resumeCycle actor cycle command = next) :
      Move (next.1.putActor next.2)

variable {session actor}

theorem wake_cases {roused : Actor} (rouses : session.roused? actor = some roused) :
    Move session actor (session.wake roused) := by
  have wakes : session.awake? actor =
      some (roused.drain session.engine.config.reconcile.batch) := by
    rw [awake?, rouses, Option.map_some]
  rw [wake]
  generalize roused.drain session.engine.config.reconcile.batch = awake at wakes
  simp only
  split
  · rename_i ending
    exact .ends wakes ending
  · rename_i lasting
    rw [Bool.not_eq_true] at lasting
    rw [beginCycle]
    split
    · rename_i allowed
      split
      · rename_i actions missing
        exact .begins wakes lasting allowed missing rfl
      · rename_i problem unknown
        exact .fails wakes lasting allowed unknown
    · rename_i barred
      exact .declines wakes lasting (by simpa using barred)

/-- An actor takes what is in its queue, and nothing of what it is at changes before it looks. -/
theorem takes_awake? {awake : Actor} (wakes : session.awake? actor = some awake) :
    ∃ taken, actor.Takes taken awake := by
  rw [awake?, Option.map_eq_some_iff] at wakes
  rcases wakes with ⟨roused, rouses, rfl⟩
  have drained := roused.takes_drain session.engine.config.reconcile.batch
  have taken : ∃ taken, actor.Takes taken roused := by
    rw [roused?] at rouses
    split at rouses
    · rename_i trigger queue _ queued
      split at rouses
      · cases rouses
      · obtain rfl := Option.some.inj rouses
        exact ⟨_, Actor.takes_absorb queued⟩
    · split at rouses
      · obtain rfl := Option.some.inj rouses
        exact ⟨_, .refl actor⟩
      · split at rouses
        · cases rouses
        · rename_i trigger queue _ queued
          split at rouses
          · cases rouses
          · obtain rfl := Option.some.inj rouses
            exact ⟨_, Actor.takes_absorb queued⟩
    · cases rouses
  rcases taken with ⟨taken, takes⟩
  exact ⟨_, takes.trans drained⟩

theorem awake?_eq_none (asleep : session.roused? actor = none) : session.awake? actor = none := by
  rw [awake?, asleep, Option.map_none]

variable (session actor)

theorem move_cases : Move session actor (session.moveActor actor) := by
  unfold moveActor
  split
  · rename_i receiving queued
    refine .waits (awake?_eq_none ?_) ?_
    · simp [roused?, receiving, queued]
    · simp [receiving]
  · rename_i trigger queue receiving queued
    rw [receive]
    split
    · rename_i debounced
      refine .absorbs (awake?_eq_none ?_) ?_ (Actor.takes_absorb queued) ?_
      · simp [roused?, receiving, queued, debounced]
      · simp [receiving]
      · rw [debounced.1]
        rfl
    · rename_i prompt
      apply wake_cases
      simp only [roused?, receiving, queued]
      rw [if_neg prompt]
  · rename_i deadline receiving
    split
    · rename_i past
      apply wake_cases
      simp only [roused?, receiving]
      rw [if_pos past]
    · rename_i early
      split
      · rename_i queued
        refine .waits (awake?_eq_none ?_) ?_
        · simp [roused?, receiving, queued, early]
        · simp [receiving]
      · rename_i trigger queue queued
        rw [receiveMore]
        split
        · rename_i background
          have absorbs : Move session actor
              (session.putActor { { actor with queue := queue }.absorb trigger with
                stage := .debouncing deadline }) := by
            refine .absorbs (awake?_eq_none ?_) ?_ (Actor.takes_absorb queued) background
            · simp [roused?, receiving, queued, early, background]
            · simp [receiving]
          rwa [← receiving] at absorbs
        · rename_i urgent
          apply wake_cases
          simp only [roused?, receiving, queued]
          rw [if_neg early, if_neg urgent]
  · rename_i cycle command answersAt sending
    split
    · rename_i answered
      exact .resumes sending answered rfl
    · rename_i early
      refine .waits (awake?_eq_none ?_) ?_
      · simp [roused?, sending]
      · intro other otherCommand time sameStage
        rw [sending] at sameStage
        cases sameStage
        exact Nat.lt_of_not_le early

end Session

end Reconciler
