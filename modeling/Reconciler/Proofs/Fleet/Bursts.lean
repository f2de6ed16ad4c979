import Reconciler.Proofs.Engine.Looks
import Reconciler.Proofs.Fleet.Punctuality
import Reconciler.Proofs.Fleet.Wakeups

/-!
# Bursts

After a change of its lattice, an actor waits a while for more triggers before it looks. It takes
every trigger that comes in the meantime without waiting any longer for it. So a burst of changes
costs one cycle, at the end of the wait, and leaves nothing behind for another one.

This takes a run in which no time passes that the actor has a use for, as in all that the scheduler
does (`World.reaches_request`).
-/

namespace Reconciler

/-- An actor that takes a trigger of the background goes on as before. -/
theorem Actor.absorb_of_isBackground (actor : Actor) {trigger : Trigger}
    (background : trigger.isBackground = true) : actor.absorb trigger = actor := by
  rcases actor with ⟨number, key, intent, isEnding, queue, callers, stage, status⟩
  cases trigger with
  | observed => simp [absorb, Intent.after]
  | resync => simp [absorb, Intent.after]
  | _ => cases background

namespace Session

variable {session : Session} {actor : Actor} {trigger : Trigger} {queue : List Trigger}
  {deadline : Nat}

/-- An actor that receives a change waits for more triggers from then on. -/
theorem step_of_observed (receiving : actor.stage = .receiving)
    (queued : actor.queue = .observed :: queue)
    (waits : 0 < session.engine.config.reconcile.debounce) :
    session.step actor .waiting =
      (session.putActor { actor with
        queue := queue
        stage := .debouncing (session.now.elapsed + session.engine.config.reconcile.debounce) },
        .waiting) := by
  have background : Trigger.observed.isBackground = true := rfl
  simp only [step, roused?, moveActor, receiving, queued, receive,
    Actor.absorb_of_isBackground _ background, true_and, waits, if_true]

/-- While an actor waits for more triggers, it takes those of the background and waits on. -/
theorem step_of_background (debouncing : actor.stage = .debouncing deadline)
    (early : session.now.elapsed < deadline) (queued : actor.queue = trigger :: queue)
    (background : trigger.isBackground = true) :
    session.step actor .waiting = (session.putActor { actor with queue := queue }, .waiting) := by
  simp only [step, roused?, moveActor, debouncing, queued, receiveMore,
    Actor.absorb_of_isBackground _ background, background, if_neg early.not_ge, if_true]

theorem step_of_quiet (debouncing : actor.stage = .debouncing deadline)
    (early : session.now.elapsed < deadline) (empty : actor.queue = []) :
    session.step actor .waiting = (session, .waiting) := by
  simp only [step, roused?, moveActor, debouncing, empty, if_neg early.not_ge]

/-- An actor that has waited long enough begins to take its triggers. -/
theorem step_of_due (session : Session) (debouncing : actor.stage = .debouncing deadline)
    (due : deadline ≤ session.now.elapsed) :
    session.step actor .waiting =
      (session.putActor actor, .draining session.engine.config.reconcile.batch) := by
  simp only [step, roused?, debouncing, if_pos due]

theorem step_of_drained (session : Session) (empty : actor.queue = []) (left : Nat) :
    session.step actor (.draining left) = (session, .looking) := by
  cases left with
  | zero => rfl
  | succ left => simp only [step, empty]

end Session

/-- To go through the prefixes of a list and their last members is to go through a list. -/
theorem forall_mem_inits_getLast? {α : Type} {members : List α} {motive : List α → α → Prop} :
    (∀ part ∈ members.inits, ∀ last ∈ part.getLast?, motive part.dropLast last) ↔
      ∀ done last, done ++ [last] <+: members → motive done last := by
  constructor
  · intro every done last part
    have held := every _ ((List.mem_inits _ _).mpr part) last List.getLast?_concat
    rwa [List.dropLast_concat] at held
  · intro every part isPart last isLast
    refine every _ last ?_
    rw [List.dropLast_append_getLast? last isLast]
    exact (List.mem_inits _ _).mp isPart

namespace SlowMotion

/-- The actor of a member for an application, if it has one. -/
def actorFor? (slow : SlowMotion) (index : Nat) (key : ActorKey) : Option Actor :=
  (slow.world.fleet.session? index).bind fun session => session.engine.roster.find? key

/--
In an act, an actor of a member has triggers of the background only, and none of them comes at the
closing time or later. The act is punctual for the actor, and if it is about to look at its lattice,
it attends to it.
-/
structure BurstAct (slow : SlowMotion) (act : Act) (index : Nat) (key : ActorKey) (closing : Nat)
    (actor later : Actor) : Prop where
  same : later.number = actor.number
  background : ∀ trigger ∈ actor.queue, trigger.isBackground = true
  closed : closing ≤ slow.time → later.queue <:+ actor.queue
  punctual : slow.IsPunctual act index actor
  attends : slow.pace index actor.number = .looking → slow.Attends index key actor.number

instance (slow : SlowMotion) (act : Act) (index : Nat) (key : ActorKey) (closing : Nat)
    (actor later : Actor) : Decidable (slow.BurstAct act index key closing actor later) :=
  decidable_of_iff
    (later.number = actor.number ∧ (∀ trigger ∈ actor.queue, trigger.isBackground = true) ∧
      (closing ≤ slow.time → later.queue <:+ actor.queue) ∧ slow.IsPunctual act index actor ∧
      (slow.pace index actor.number = .looking → slow.Attends index key actor.number))
    ⟨fun ⟨same, background, closed, punctual, attends⟩ =>
        ⟨same, background, closed, punctual, attends⟩,
      fun burst => ⟨burst.same, burst.background, burst.closed, burst.punctual, burst.attends⟩⟩

/--
Some acts in which an actor of a member stays on the roster, and which are a burst for it that is
over at a closing time.
-/
def Burst (slow : SlowMotion) (acts : List Act) (index : Nat) (key : ActorKey)
    (number closing : Nat) : Prop :=
  ∀ done act, done ++ [act] <+: acts →
    ∃ actor ∈ (slow.afterAll done).actorFor? index key,
      ∃ later ∈ (slow.afterAll (done ++ [act])).actorFor? index key,
        actor.number = number ∧ (slow.afterAll done).BurstAct act index key closing actor later

instance (slow : SlowMotion) (acts : List Act) (index : Nat) (key : ActorKey)
    (number closing : Nat) : Decidable (slow.Burst acts index key number closing) :=
  decidable_of_iff _ (forall_mem_inits_getLast? (motive := fun done act =>
    ∃ actor ∈ (slow.afterAll done).actorFor? index key,
      ∃ later ∈ (slow.afterAll (done ++ [act])).actorFor? index key,
        actor.number = number ∧
          (slow.afterAll done).BurstAct act index key closing actor later))

/-- In some acts, an actor of a member looks at its lattice in the one that comes after a part. -/
def LooksAfter (slow : SlowMotion) (acts : List Act) (index number : Nat) (done : List Act) :
    Prop :=
  ∃ act, done ++ [act] <+: acts ∧ (slow.afterAll done).Looks act index number

/--
In some acts, an actor of a member looks at its lattice once, after a part of them and at a certain
time. It goes through one cycle for what it finds in the lattice as it is then, and that cycle shows
at the actor later on.
-/
structure OneCycle (slow : SlowMotion) (acts : List Act) (index : Nat) (key : ActorKey) (time : Nat)
    (actor later : Actor) (done : List Act) (session : Session) (former : Actor)
    (outcome : Except StoreError (List RequiredAction)) : Prop where
  time : (slow.afterAll done).time = time
  found : (slow.afterAll done).world.fleet.session? index = some session
  present : session.engine.roster.find? key = some former
  same : former.number = actor.number
  unchanged : former.status = actor.status
  looks : ∀ other, slow.LooksAfter acts index actor.number other ↔ other = done
  finds : session.Finds former outcome
  cycles : slow.afterAll (done ++ [.moveActor index actor.number]) =
    (slow.afterAll done).place index actor.number
      ((session.cycle former outcome).1.putActor (session.cycle former outcome).2, .waiting)
  shows : later.ShowsCycle actor.status.cycles outcome

/-- How far an actor is with a burst before it looks at its lattice. -/
inductive Gathers (slow : SlowMotion) (index window closing : Nat) (actor : Actor) : Prop
  /-- It is about to receive the first trigger. -/
  | begins {queue : List Trigger} (pace : slow.pace index actor.number = .waiting)
      (stage : actor.stage = .receiving) (queued : actor.queue = .observed :: queue)
      (time : slow.time + window = closing)
  /-- It waits for more triggers. -/
  | waits (pace : slow.pace index actor.number = .waiting)
      (stage : actor.stage = .debouncing closing) (time : slow.time ≤ closing)
      (drained : slow.time = closing → actor.queue = [])
  /-- It has waited long enough, and no trigger is left for it to take. -/
  | closes (pace : slow.pace index actor.number ≠ .waiting)
      (stage : actor.stage = .debouncing closing) (time : slow.time = closing)
      (drained : actor.queue = [])

/--
An actor that is not waiting for more triggers, and has none: all that it may have to do is to go on
with a cycle, which shows.
-/
structure IsDone (slow : SlowMotion) (index : Nat) (before : UInt64)
    (outcome : Except StoreError (List RequiredAction)) (actor : Actor) : Prop where
  drained : actor.queue = []
  unroused : ¬slow.HasReceived index actor
  shows : actor.ShowsCycle before outcome

variable {slow : SlowMotion} {act : Act} {acts : List Act} {index number window closing : Nat}
  {session next : Session} {key : ActorKey} {actor later moved : Actor} {before : UInt64}
  {outcome : Except StoreError (List RequiredAction)}

theorem looksAfter_concat_iff {done : List Act} :
    slow.LooksAfter (acts ++ [act]) index number done ↔
      slow.LooksAfter acts index number done ∨
        done = acts ∧ (slow.afterAll acts).Looks act index number := by
  constructor
  · rintro ⟨other, part, looks⟩
    rcases List.prefix_concat_iff.mp part with all | sooner
    · rcases List.append_inj' all rfl with ⟨rfl, isAct⟩
      obtain rfl := List.singleton_inj.mp isAct
      exact Or.inr ⟨rfl, looks⟩
    · exact Or.inl ⟨other, sooner, looks⟩
  · rintro (⟨other, part, looks⟩ | ⟨rfl, looks⟩)
    · exact ⟨other, part.trans (List.prefix_append _ _), looks⟩
    · exact ⟨act, List.prefix_rfl, looks⟩

/-- An actor of the roster is as a step of its own has left it. -/
theorem eq_of_step {state : Session × Pace}
    (found : slow.world.fleet.session? index = some session)
    (isActor : session.engine.actor? actor.number = some actor)
    (stepped : session.step actor (slow.pace index actor.number) = state)
    (presentAfter : state.1.engine.roster.find? key = some moved)
    (foundNext : (slow.after (.moveActor index actor.number)).world.fleet.session? index =
      some next)
    (presentNext : next.engine.roster.find? key = some later) :
    later = moved ∧
      (slow.after (.moveActor index actor.number)).pace index actor.number = state.2 := by
  have isPlaced := step_of_found found isActor
  have sameTime := session.now_step actor (slow.pace index actor.number)
  rw [stepped] at isPlaced sameTime
  rw [isPlaced, place, Fleet.session?_putSession_self found sameTime] at foundNext
  obtain rfl := Option.some.inj foundNext
  refine ⟨Option.some.inj (presentNext.symm.trans presentAfter), ?_⟩
  rw [isPlaced, place]
  exact if_pos ⟨rfl, rfl⟩

/-- An actor that gathers triggers is not in the middle of a cycle. -/
theorem Gathers.unsent (gathers : slow.Gathers index window closing actor) (cycle : Cycle)
    (command : Command) (answersAt : Nat) : actor.stage ≠ .sending cycle command answersAt := by
  intro sending
  cases gathers with
  | begins _ stage => cases stage.symm.trans sending
  | waits _ stage => cases stage.symm.trans sending
  | closes _ stage => cases stage.symm.trans sending

/-- What happens besides its own steps leaves an actor as far with a burst as it is. -/
theorem Gathers.of_others (gathers : slow.Gathers index window closing actor)
    (others : act ≠ .moveActor index actor.number) (hears : actor.Hears later)
    (still : 0 < act.millis → later = actor) (punctual : slow.IsPunctual act index actor)
    (closed : closing ≤ slow.time → later.queue <:+ actor.queue) :
    (slow.after act).Gathers index window closing later := by
  have paced : (slow.after act).pace index later.number = slow.pace index actor.number := by
    rw [hears.number, pace_after others]
  have time := slow.time_after act
  cases gathers with
  | begins pace stage queued begun =>
      have quick := punctual.millis_eq_zero (Or.inr (by simp [Actor.canMove, stage, queued]))
      rcases hears.queue with ⟨more, queuedLater⟩
      rw [queued] at queuedLater
      exact .begins (paced.trans pace) (hears.stage.trans stage) queuedLater.symm (by omega)
  | waits pace stage early drained =>
      -- Where time passes, nothing is in the queue, and it passes up to the closing time at most.
      by_cases passes : 0 < act.millis
      · obtain rfl := still passes
        rcases punctual passes with ⟨unable, bound⟩
        have inTime := bound closing (by simp [Actor.deadline?, stage])
        have empty : later.queue = [] := by
          by_contra queued
          exact unable (Or.inr (by simp [Actor.canMove, stage, queued]))
        exact .waits (paced.trans pace) stage (time ▸ inTime) fun _ => empty
      · have sameTime : (slow.after act).time = slow.time := by omega
        refine .waits (paced.trans pace) (hears.stage.trans stage) (sameTime ▸ early) fun now => ?_
        rw [sameTime] at now
        exact List.suffix_nil.mp (drained now ▸ closed now.ge)
  | closes pace stage now drained =>
      have quick := punctual.millis_eq_zero (Or.inl pace)
      exact .closes (paced ▸ pace) (hears.stage.trans stage) (by omega)
        (List.suffix_nil.mp (drained ▸ closed now.ge))

/-- An actor that does not look yet comes further with a burst by a step of its own. -/
theorem Gathers.of_own (gathers : slow.Gathers index window closing actor) (positive : 0 < window)
    (found : slow.world.fleet.session? index = some session)
    (waits : session.engine.config.reconcile.debounce = window)
    (isActor : session.engine.actor? actor.number = some actor)
    (present : session.engine.roster.find? key = some actor)
    (background : ∀ trigger ∈ actor.queue, trigger.isBackground = true)
    (unlooking : slow.pace index actor.number ≠ .looking)
    (foundNext : (slow.after (.moveActor index actor.number)).world.fleet.session? index =
      some next)
    (presentNext : next.engine.roster.find? key = some later) :
    (slow.after (.moveActor index actor.number)).Gathers index window closing later ∧
      later.status = actor.status := by
  have sameTime : (slow.after (.moveActor index actor.number)).time = slow.time :=
    slow.time_after _
  have clock := elapsed_of_session? found
  cases gathers with
  | begins pace stage queued begun =>
      have stepped := Session.step_of_observed stage queued (waits ▸ positive)
      rw [← pace] at stepped
      rcases eq_of_step found isActor stepped
        (Session.find?_putActor_self (.refl _) present rfl) foundNext presentNext with ⟨rfl, paced⟩
      refine ⟨.waits (paced.trans pace) ?_ (by omega) fun now => by omega, rfl⟩
      simp only [Stage.debouncing.injEq]
      omega
  | waits pace stage early drained =>
      rcases early.lt_or_eq with soon | now
      · have before : session.now.elapsed < closing := clock ▸ soon
        cases queued : actor.queue with
        | nil =>
            have stepped := Session.step_of_quiet stage before queued
            rw [← pace] at stepped
            rcases eq_of_step found isActor stepped present foundNext presentNext with
              ⟨rfl, paced⟩
            exact ⟨.waits (paced.trans pace) stage (sameTime ▸ early) fun _ => queued, rfl⟩
        | cons trigger queue =>
            have stepped := Session.step_of_background stage before queued
              (background trigger (queued ▸ List.mem_cons_self))
            rw [← pace] at stepped
            rcases eq_of_step found isActor stepped
              (Session.find?_putActor_self (.refl _) present rfl) foundNext presentNext with
              ⟨rfl, paced⟩
            exact ⟨.waits (paced.trans pace) stage (sameTime ▸ early) fun now => by omega, rfl⟩
      · have stepped := session.step_of_due stage (clock.trans now).ge
        rw [← pace] at stepped
        rcases eq_of_step found isActor stepped
          (Session.find?_putActor_self (.refl _) present rfl) foundNext presentNext with
          ⟨rfl, paced⟩
        exact ⟨.closes (paced ▸ nofun) stage (sameTime.trans now) (drained now), rfl⟩
  | closes pace stage now drained =>
      cases paced : slow.pace index actor.number with
      | waiting => exact absurd paced pace
      | looking => exact absurd paced unlooking
      | draining left =>
          have stepped := session.step_of_drained drained left
          rw [← paced] at stepped
          rcases eq_of_step found isActor stepped present foundNext presentNext with
            ⟨rfl, pacedNext⟩
          exact ⟨.closes (pacedNext ▸ nofun) stage (sameTime.trans now) drained, rfl⟩

/-- When an actor looks, it is done with its burst. -/
theorem Gathers.isDone (gathers : slow.Gathers index window closing actor)
    (found : slow.world.fleet.session? index = some session)
    (isActor : session.engine.actor? actor.number = some actor)
    (present : session.engine.roster.find? key = some actor) (lasting : actor.isEnding = false)
    (allowed : session.mayLook actor = true) (looking : slow.pace index actor.number = .looking)
    (foundNext : (slow.after (.moveActor index actor.number)).world.fleet.session? index =
      some next)
    (presentNext : next.engine.roster.find? key = some later) :
    slow.time = closing ∧ ∃ outcome, session.Finds actor outcome ∧
      slow.after (.moveActor index actor.number) = slow.place index actor.number
        ((session.cycle actor outcome).1.putActor (session.cycle actor outcome).2, .waiting) ∧
      (slow.after (.moveActor index actor.number)).IsDone index actor.status.cycles outcome
        later := by
  rcases Session.exists_finds allowed with ⟨outcome, finds, begins⟩
  cases gathers with
  | begins pace => cases pace.symm.trans looking
  | waits pace => cases pace.symm.trans looking
  | closes pace _ now drained =>
      have works := session.works_beginCycle actor
      rw [begins] at works
      have stepped : session.step actor (slow.pace index actor.number) =
          ((session.cycle actor outcome).1.putActor (session.cycle actor outcome).2,
            .waiting) := by
        rw [looking, Session.step, Session.look_of_lasting _ lasting, begins]
      rcases eq_of_step found isActor stepped
        (Session.find?_putActor_self works.crew present works.seat.number) foundNext
        presentNext with ⟨rfl, paced⟩
      refine ⟨now, outcome, finds, stepped ▸ step_of_found found isActor,
        works.queue.trans drained, ?_, session.showsCycle_cycle actor outcome⟩
      rintro (⟨deadline, debouncing⟩ | awake)
      · exact works.prompt deadline debouncing
      · exact awake (works.seat.number ▸ paced)

theorem IsDone.unlooking (isDone : slow.IsDone index before outcome actor) (act : Act) :
    ¬slow.Looks act index actor.number := by
  rintro ⟨_, looking, _⟩
  exact isDone.unroused (Or.inr (looking ▸ nofun))

theorem IsDone.of_others (isDone : slow.IsDone index before outcome actor)
    (others : act ≠ .moveActor index actor.number) (hears : actor.Hears later)
    (closed : later.queue <:+ actor.queue) :
    (slow.after act).IsDone index before outcome later := by
  refine ⟨List.suffix_nil.mp (isDone.drained ▸ closed), ?_,
    isDone.shows.of_same hears.stage (congrArg _ hears.status) (congrArg _ hears.status)⟩
  rw [HasReceived, hears.stage, hears.number, pace_after others]
  exact isDone.unroused

/-- An actor that is done with a burst has nothing more to do than to finish its cycle. -/
theorem IsDone.of_own (isDone : slow.IsDone index before outcome actor)
    (found : slow.world.fleet.session? index = some session)
    (isActor : session.engine.actor? actor.number = some actor)
    (present : session.engine.roster.find? key = some actor)
    (foundNext : (slow.after (.moveActor index actor.number)).world.fleet.session? index =
      some next)
    (presentNext : next.engine.roster.find? key = some later) :
    (slow.after (.moveActor index actor.number)).IsDone index before outcome later := by
  have paced : slow.pace index actor.number = .waiting := by
    by_contra awake
    exact isDone.unroused (Or.inr awake)
  have rests : session.step actor (slow.pace index actor.number) = (session, .waiting) →
      (slow.after (.moveActor index actor.number)).IsDone index before outcome later := by
    intro stepped
    rcases eq_of_step found isActor stepped present foundNext presentNext with ⟨rfl, pacedNext⟩
    refine ⟨isDone.drained, ?_, isDone.shows⟩
    rintro (debouncing | awake)
    · exact isDone.unroused (Or.inl debouncing)
    · exact awake pacedNext
  cases stage : actor.stage with
  | receiving =>
      refine rests ?_
      simp only [paced, Session.step, Session.roused?, Session.moveActor, stage, isDone.drained]
  | debouncing deadline => exact absurd (Or.inl ⟨deadline, stage⟩) isDone.unroused
  | sending cycle command answersAt =>
      by_cases due : answersAt ≤ session.now.elapsed
      · have works := session.works_resumeCycle actor cycle command
        have stepped : session.step actor (slow.pace index actor.number) =
            ((session.resumeCycle actor cycle command).1.putActor
              (session.resumeCycle actor cycle command).2, .waiting) := by
          simp only [paced, Session.step, Session.roused?, Session.moveActor, stage, if_pos due]
        rcases eq_of_step found isActor stepped
          (Session.find?_putActor_self works.crew present works.seat.number) foundNext
          presentNext with ⟨rfl, pacedNext⟩
        refine ⟨works.queue.trans isDone.drained, ?_,
          Session.showsCycle_resumeCycle isDone.shows stage⟩
        rintro (⟨deadline, debouncing⟩ | awake)
        · exact works.prompt deadline debouncing
        · exact awake (works.seat.number ▸ pacedNext)
      · refine rests ?_
        simp only [paced, Session.step, Session.roused?, Session.moveActor, stage, if_neg due]

/--
In an act, an actor comes further with a burst, or it looks for it at the closing time and begins a
cycle.
-/
theorem Gathers.after (gathers : slow.Gathers index window closing actor) (positive : 0 < window)
    (tidy : slow.Tidy index session) (found : slow.world.fleet.session? index = some session)
    (waits : session.engine.config.reconcile.debounce = window)
    (present : session.engine.roster.find? key = some actor)
    (burst : slow.BurstAct act index key closing actor later)
    (foundNext : (slow.after act).world.fleet.session? index = some next)
    (presentNext : next.engine.roster.find? key = some later) :
    (¬slow.Looks act index actor.number ∧ (slow.after act).Gathers index window closing later ∧
        later.status = actor.status) ∨
      slow.Looks act index actor.number ∧ slow.time = closing ∧
        ∃ outcome, session.Finds actor outcome ∧
          slow.after act = slow.place index actor.number
            ((session.cycle actor outcome).1.putActor (session.cycle actor outcome).2,
              .waiting) ∧
          (slow.after act).IsDone index actor.status.cycles outcome later := by
  have isActor := tidy.numbered.actor?_eq_some present
  by_cases own : act = .moveActor index actor.number
  · subst own
    by_cases looking : slow.pace index actor.number = .looking
    · have lasting := (tidy.lasting key actor present).lasting
      have mayLook := ((burst.attends looking).of_found found present).mayLook
        (tidy.keyed key actor present)
      exact Or.inr ⟨⟨rfl, looking, session, actor, found, isActor, lasting, mayLook⟩,
        gathers.isDone found isActor present lasting mayLook looking foundNext presentNext⟩
    · exact Or.inl ⟨fun looks => looking looks.2.1, gathers.of_own positive found waits isActor
        present burst.background looking foundNext presentNext⟩
  · have hears := hears_after tidy found present own foundNext presentNext burst.same
    refine Or.inl ⟨fun looks => own looks.1,
      gathers.of_others own hears (fun passes => ?_) burst.punctual burst.closed, hears.status⟩
    rw [engine_after_of_millis passes found foundNext, present] at presentNext
    exact (Option.some.inj presentNext).symm

theorem IsDone.after (isDone : slow.IsDone index before outcome actor)
    (tidy : slow.Tidy index session)
    (found : slow.world.fleet.session? index = some session)
    (present : session.engine.roster.find? key = some actor)
    (closed : later.queue <:+ actor.queue)
    (foundNext : (slow.after act).world.fleet.session? index = some next)
    (presentNext : next.engine.roster.find? key = some later)
    (same : later.number = actor.number) : (slow.after act).IsDone index before outcome later := by
  by_cases own : act = .moveActor index actor.number
  · subst own
    exact isDone.of_own found (tidy.numbered.actor?_eq_some present) present foundNext presentNext
  · exact isDone.of_others own
      (hears_after tidy found present own foundNext presentNext same) closed

section OneCycle

variable {former last : Actor} {done : List Act}

theorem OneCycle.concat
    (once : slow.OneCycle acts index key closing actor former done session later outcome)
    (unlooked : ¬(slow.afterAll acts).Looks act index actor.number)
    (shows : last.ShowsCycle actor.status.cycles outcome) :
    slow.OneCycle (acts ++ [act]) index key closing actor last done session later outcome :=
  { once with
    looks := fun other => by
      rw [looksAfter_concat_iff, once.looks]
      exact or_iff_left fun looks => unlooked looks.2
    shows := shows }

theorem oneCycle_concat (unseen : ∀ done, ¬slow.LooksAfter acts index actor.number done)
    (now : (slow.afterAll acts).time = closing)
    (found : (slow.afterAll acts).world.fleet.session? index = some session)
    (present : session.engine.roster.find? key = some former)
    (same : former.number = actor.number) (unchanged : former.status = actor.status)
    (looks : (slow.afterAll acts).Looks act index actor.number)
    (finds : session.Finds former outcome)
    (cycles : (slow.afterAll acts).after act = (slow.afterAll acts).place index actor.number
      ((session.cycle former outcome).1.putActor (session.cycle former outcome).2, .waiting))
    (shows : last.ShowsCycle actor.status.cycles outcome) :
    slow.OneCycle (acts ++ [act]) index key closing actor last acts session former outcome where
  time := now
  found := found
  present := present
  same := same
  unchanged := unchanged
  looks other := by
    rw [looksAfter_concat_iff, or_iff_right (unseen other)]
    exact and_iff_left looks
  finds := finds
  cycles := by rw [← looks.1, afterAll_concat, cycles]
  shows := shows

end OneCycle

theorem exists_of_actorFor? (present : slow.actorFor? index key = some actor) :
    ∃ session, slow.world.fleet.session? index = some session ∧
      session.engine.roster.find? key = some actor :=
  Option.bind_eq_some_iff.mp present

theorem actorFor?_of_find? (found : slow.world.fleet.session? index = some session)
    (present : session.engine.roster.find? key = some actor) :
    slow.actorFor? index key = some actor :=
  Option.bind_eq_some_iff.mpr ⟨session, found, present⟩

/--
Throughout a burst, an actor has not looked yet, or it has looked once, and is done but for the
cycle that it has begun then.
-/
theorem Burst.gathers_or_isDone {world : World} (isFresh : world.IsFresh) {first acts : List Act}
    (burst : ((new world).afterAll first).Burst acts index key actor.number closing)
    (found : ((new world).afterAll first).world.fleet.session? index = some session)
    (present : session.engine.roster.find? key = some actor) (positive : 0 < window)
    (waits : session.engine.config.reconcile.debounce = window)
    (gathers : ((new world).afterAll first).Gathers index window closing actor) :
    let start := (new world).afterAll first
    let last := start.afterAll acts
    ∃ next later, last.world.fleet.session? index = some next ∧
      next.engine.roster.find? key = some later ∧ later.number = actor.number ∧
      next.engine.config.reconcile.debounce = window ∧
      ((∀ done, ¬start.LooksAfter acts index actor.number done) ∧
          last.Gathers index window closing later ∧ later.status = actor.status ∨
        closing ≤ last.time ∧ ∃ done middle former outcome,
          start.OneCycle acts index key closing actor later done middle former outcome ∧
          last.IsDone index actor.status.cycles outcome later) := by
  intro start
  -- By induction on the acts: each leaves the actor at the burst, or it looks, or it has looked.
  induction acts using List.reverseRecOn with
  | nil =>
      refine ⟨session, actor, found, present, rfl, waits, Or.inl ⟨?_, gathers, rfl⟩⟩
      rintro done ⟨act, part, _⟩
      exact List.concat_ne_nil act done (List.prefix_nil.mp part)
  | append_singleton acts act ih =>
      have sooner : acts <+: acts ++ [act] := List.prefix_append acts [act]
      rcases ih fun done other part => burst done other (part.trans sooner) with
        ⟨middle, former, middleFound, formerPresent, same, middleWaits, course⟩
      rcases burst acts act List.prefix_rfl with ⟨other, isOther, later, isLater, _, inBurst⟩
      obtain rfl := Option.some.inj
        ((actorFor?_of_find? middleFound formerPresent).symm.trans isOther)
      rcases exists_of_actorFor? isLater with ⟨next, nextFound, laterPresent⟩
      have tidy : (start.afterAll acts).Tidy index middle := by
        have throughout : start.afterAll acts = (new world).afterAll (first ++ acts) :=
          ((new world).afterAll_append first acts).symm
        rw [throughout] at middleFound ⊢
        exact tidy_afterAll isFresh middleFound
      have timeNext := (start.afterAll acts).time_after act
      rw [afterAll_concat] at nextFound ⊢
      refine ⟨next, later, nextFound, laterPresent, inBurst.same.trans same, ?_, ?_⟩
      · rw [config_after middleFound nextFound, middleWaits]
      rcases course with ⟨unseen, gathers, unchanged⟩ | ⟨past, done, _, _, outcome, once, isDone⟩
      · rcases gathers.after positive tidy middleFound middleWaits formerPresent inBurst nextFound
          laterPresent with ⟨unlooked, gathersNext, still⟩ | ⟨looks, now, outcome, finds, cycles,
            isDone⟩
        · left
          rw [same] at unlooked
          refine ⟨fun done looks => ?_, gathersNext, still.trans unchanged⟩
          exact (looksAfter_concat_iff.mp looks).elim (unseen done) fun last => unlooked last.2
        · right
          rw [same] at looks cycles
          rw [unchanged] at isDone
          exact ⟨by omega, _, _, _, outcome, oneCycle_concat unseen now middleFound formerPresent
            same unchanged looks finds cycles isDone.shows, isDone⟩
      · right
        have unlooked := isDone.unlooking act
        rw [same] at unlooked
        have doneNext := isDone.after tidy middleFound formerPresent (inBurst.closed past) nextFound
          laterPresent inBurst.same
        exact ⟨by omega, _, _, _, outcome, once.concat unlooked doneNext.shows, doneNext⟩

theorem Gathers.time_le (gathers : slow.Gathers index window closing actor) :
    slow.time ≤ closing := by
  cases gathers with
  | begins _ _ _ begun => exact begun ▸ Nat.le_add_right _ _
  | waits _ _ early => exact early
  | closes _ _ now => exact now.le

/-- At the closing time, an actor that has not looked yet has something to do. -/
theorem Gathers.canStep (gathers : slow.Gathers index window closing actor) (positive : 0 < window)
    (now : slow.time = closing) : slow.CanStep index actor := by
  cases gathers with
  | begins _ _ _ begun => omega
  | waits _ stage => exact Or.inr (by simp [Actor.canMove, stage, now])
  | closes pace => exact Or.inl pace

/--
An actor that waits for triggers receives one for a change of its lattice. However many triggers of
the background come while it waits for more, whatever the capacity of queues and the size of batches
are, and however the acts of the fleet and the steps of the actor follow on each other: as long as
no time passes that the actor has a use for, it does not look at its lattice before the time of
waiting is over, and begins no cycle. It looks just once, at that time, and goes through one cycle
for what is missing in the lattice as it is then, which its status counts at the end. Nothing is
left in its queue for it to look once more.
-/
theorem burst_costs_one_cycle {world : World} (isFresh : world.IsFresh) {first acts : List Act}
    {queue : List Trigger}
    (found : ((new world).afterAll first).world.fleet.session? index = some session)
    (present : session.engine.roster.find? key = some actor)
    (idle : ((new world).afterAll first).pace index actor.number = .waiting)
    (receiving : actor.stage = .receiving) (queued : actor.queue = .observed :: queue)
    (waits : 0 < session.engine.config.reconcile.debounce)
    (burst : ((new world).afterAll first).Burst acts index key actor.number
      (session.now.elapsed + session.engine.config.reconcile.debounce)) :
    let start := (new world).afterAll first
    let last := start.afterAll acts
    let closing := session.now.elapsed + session.engine.config.reconcile.debounce
    ∃ later ∈ last.actorFor? index key, later.number = actor.number ∧
      ((∀ done, ¬start.LooksAfter acts index actor.number done) ∧ later.status = actor.status ∧
          (∀ cycle command answersAt, later.stage ≠ .sending cycle command answersAt) ∧
          last.time ≤ closing ∧ (last.time = closing → last.CanStep index later) ∨
        (∃ done middle former outcome,
          start.OneCycle acts index key closing actor later done middle former outcome) ∧
          closing ≤ last.time ∧ later.queue = [] ∧ ¬last.HasReceived index later) := by
  intro start last closing
  have begun : start.Gathers index session.engine.config.reconcile.debounce closing actor :=
    .begins idle receiving queued (congrArg (· + _) (elapsed_of_session? found).symm)
  rcases burst.gathers_or_isDone isFresh found present waits rfl begun with
    ⟨next, later, nextFound, laterPresent, same, _, course⟩
  refine ⟨later, actorFor?_of_find? nextFound laterPresent, same, ?_⟩
  rcases course with ⟨unseen, gathers, unchanged⟩ | ⟨past, done, middle, former, outcome, once,
    isDone⟩
  · exact Or.inl ⟨unseen, unchanged, gathers.unsent, gathers.time_le, gathers.canStep waits⟩
  · exact Or.inr ⟨⟨done, middle, former, outcome, once⟩, past, isDone.drained, isDone.unroused⟩

/--
Three changes and a call to look again come to an actor whose queue and batches hold one trigger.
The third change finds the queue full. The actor looks once, ten milliseconds after the first one,
and its status counts one more cycle then.
-/
theorem burst_costs_one_cycle_of_full_queue :
    let started (host : String) : LatticeEvent :=
      ⟨⟨"prod"⟩, ⟨host⟩, 1, ⟨0, 0⟩, .hostStarted ∅ none⟩
    let manifest : Manifest := (Manifest.new ⟨"shop"⟩ "v1").withComponent
      ((Component.new "api" .component "registry/api:1").withTrait (.spreadScaler (.new 1)))
    let narrow : ReconcileConfig :=
      { ControlConfig.development.reconcile with channelCapacity := 1, maxBatch := 1 }
    let config : ControlConfig := { ControlConfig.development with reconcile := narrow }
    let fresh : World := .new ⟨0, ⟨0, 0⟩⟩ [⟨.new 0 config .new none (some .everything), none⟩]
    let first : List Act :=
      [.ask 0 (.submit manifest), .ask 0 (.deploy ⟨"shop"⟩ none ⟨"prod"⟩), .carryOn 1] ++
        .replicate 4 (.moveActor 0 0) ++ [.ask 0 (.ingest (started "host-a"))]
    let acts : List Act :=
      [.moveActor 0 0, .wait 4 ⟨4, 0⟩, .ask 0 (.ingest (started "host-b")),
        .ask 0 (.ingest (started "host-c")), .moveActor 0 0, .wait 4 ⟨8, 0⟩, .ask 0 .resync,
        .carryOn 5, .moveActor 0 0, .wait 2 ⟨10, 0⟩] ++
        .replicate 3 (.moveActor 0 0) ++ [.wait 100 ⟨110, 0⟩]
    let key : ActorKey := ⟨⟨"prod"⟩, ⟨"shop"⟩⟩
    let start := (new fresh).afterAll first
    fresh.IsFresh ∧ ∃ session actor,
      start.world.fleet.session? 0 = some session ∧
      session.engine.roster.find? key = some actor ∧ actor.number = 0 ∧
      start.pace 0 0 = .waiting ∧ actor.stage = .receiving ∧ actor.queue = [.observed] ∧
      session.now.elapsed = 0 ∧ session.engine.config.reconcile.debounce = 10 ∧
      start.Burst acts 0 key 0 10 ∧ (start.afterAll acts).time = 110 ∧ actor.status.cycles = 1 ∧
      ∃ later ∈ (start.afterAll acts).actorFor? 0 key,
        (∃ done middle former outcome,
          start.OneCycle acts 0 key 10 actor later done middle former outcome) ∧
        later.status.cycles = 2 ∧ later.status.lastActions = 1 ∧
        later.queue = [] ∧ ¬(start.afterAll acts).HasReceived 0 later := by
  intro started manifest narrow config fresh first acts key start
  have isFresh : fresh.IsFresh := World.isFresh_new_singleton
  have known : (start.world.fleet.session? 0).any (fun session =>
      session.now.elapsed == 0 && session.engine.config.reconcile.debounce == 10 &&
        (session.engine.roster.find? key).any fun actor =>
          actor.number == 0 && actor.stage == .receiving && actor.queue == [.observed] &&
            actor.status.cycles == 1) = true := by
    decide +kernel
  rcases (Option.any_eq_true _ _).mp known with ⟨session, found, known⟩
  simp only [Bool.and_eq_true, beq_iff_eq, Option.any_eq_true] at known
  rcases known with ⟨⟨clock, waits⟩, actor, present, ⟨⟨isNumber, receiving⟩, queued⟩, counted⟩
  have idle : start.pace 0 0 = .waiting := by decide +kernel
  have burst : start.Burst acts 0 key 0 10 := by decide +kernel
  have past : (start.afterAll acts).time = 110 := by decide +kernel
  have counts : ((start.afterAll acts).actorFor? 0 key).all (fun later =>
      later.status.cycles == 2 && later.status.lastActions == 1) = true := by decide +kernel
  have closing : session.now.elapsed + session.engine.config.reconcile.debounce = 10 := by
    rw [clock, waits]
  have isIdle : start.pace 0 actor.number = .waiting := by
    rw [isNumber]
    exact idle
  have positive : 0 < session.engine.config.reconcile.debounce := by
    rw [waits]
    decide
  have bursts : start.Burst acts 0 key actor.number
      (session.now.elapsed + session.engine.config.reconcile.debounce) := by
    rw [closing, isNumber]
    exact burst
  have outcome := burst_costs_one_cycle isFresh found present isIdle receiving queued positive
    bursts
  rw [closing] at outcome
  rcases outcome with ⟨later, isLater, _, ⟨_, _, _, early, _⟩ | ⟨once, _, drained, unroused⟩⟩
  · rw [past] at early
    exact absurd early (by decide)
  · rw [isLater, Option.all_some, Bool.and_eq_true, beq_iff_eq, beq_iff_eq] at counts
    exact ⟨isFresh, session, actor, found, present, isNumber, idle, receiving, queued, clock, waits,
      burst, past, counted, later, isLater, once, counts.1, counts.2, drained, unroused⟩

end SlowMotion

end Reconciler
