import Reconciler.Proofs.Engine.Paces
import Reconciler.Proofs.Fleet.Rosters

/-!
# Worlds in slow motion

In slow motion anything may happen between the steps of a move: others ask for something, events
come in, and other actors take steps of their own. A move is some of its steps in a row.
-/

namespace Reconciler

namespace Actor

theorem drain_of_queue_eq_nil {actor : Actor} (empty : actor.queue = []) (limit : Nat) :
    actor.drain limit = actor := by
  rcases actor with ⟨number, key, intent, isEnding, queue, callers, stage, status⟩
  simp only at empty
  subst empty
  rw [drain, List.take_nil, List.drop_nil]
  rfl

theorem drain_succ {actor : Actor} {trigger : Trigger} {queue : List Trigger}
    (queued : actor.queue = trigger :: queue) (limit : Nat) :
    actor.drain (limit + 1) = ({ actor with queue := queue }.absorb trigger).drain limit := by
  rw [drain, queued]
  rfl

end Actor

namespace Engine

theorem actors_updateActor (engine : Engine) (number : Nat) (update : Actor → Actor) :
    (engine.updateActor number update).actors =
      engine.actors.map fun actor => if actor.number = number then update actor else actor := by
  rw [actors, actors, List.map_append, updateActor, SortedMap.values, SortedMap.values,
    List.map_map]
  simp only [SortedMap.mapValues, List.map_map]
  rfl

/-- An actor that is put in the place of the one with its number has that number then. -/
theorem actor?_updateActor {engine : Engine} {number : Nat} {actor moved : Actor}
    (found : engine.actor? number = some actor) (same : moved.number = number) :
    (engine.updateActor number fun _ => moved).actor? number = some moved := by
  have sameTest : ((fun actor : Actor => actor.number == number) ∘ fun actor =>
      if actor.number = number then moved else actor) = fun actor => actor.number == number := by
    funext other
    by_cases here : other.number = number
    · simp [here, same]
    · simp [here]
  rw [actor?] at found
  rw [actor?, actors_updateActor, List.find?_map, sameTest, found, Option.map_some,
    if_pos (by simpa using List.find?_some found)]

/-- If an actor that is off the roster ends, it does not matter what was last put in its place. -/
theorem removeActor_updateActor {engine : Engine} {actor : Actor}
    (aside : ∀ key former, engine.roster.find? key = some former → former.number ≠ actor.number) :
    (engine.updateActor actor.number fun _ => actor).removeActor actor.number =
      engine.removeActor actor.number := by
  have roster : (engine.roster.mapValues fun _ former =>
      if former.number = actor.number then actor else former) = engine.roster := by
    refine SortedMap.ext_find? fun key => ?_
    rw [SortedMap.find?_mapValues]
    cases found : engine.roster.find? key with
    | none => rfl
    | some former => rw [Option.map_some, if_neg (aside key former found)]
  have sameTest : ((fun former : Actor => former.number != actor.number) ∘ fun former =>
      if former.number = actor.number then actor else former) =
      fun former => former.number != actor.number := by
    funext former
    by_cases here : former.number = actor.number <;> simp [here]
  have leaving : (engine.leaving.map fun former =>
        if former.number = actor.number then actor else former).filter
          (fun former => former.number != actor.number) =
      engine.leaving.filter fun former => former.number != actor.number := by
    rw [List.filter_map, sameTest]
    refine (List.map_congr_left fun former member => ?_).trans (List.map_id _)
    have elsewhere := (List.mem_filter.mp member).2
    exact if_neg (by simpa using elsewhere)
  simp only [updateActor, removeActor, roster, leaving]

end Engine

namespace Session

variable {session : Session} {number : Nat} {actor awake moved : Actor}

theorem actor?_putActor (found : session.engine.actor? number = some actor)
    (same : moved.number = number) :
    (session.putActor moved).engine.actor? number = some moved := by
  rw [putActor, same]
  exact Engine.actor?_updateActor found same

/-- An actor that is put down again takes the place of what it was before. -/
theorem putActor_withActors {next : Session} (crew : session.engine.SameCrew next.engine)
    (same : moved.number = awake.number) :
    (next.withActors (session.putActor awake).engine.roster
      (session.putActor awake).engine.leaving).putActor moved = next.putActor moved := by
  have twice : ∀ actor : Actor,
      (if (if actor.number = awake.number then awake else actor).number = moved.number then moved
        else if actor.number = awake.number then awake else actor) =
      if actor.number = moved.number then moved else actor := by
    intro actor
    by_cases here : actor.number = awake.number
    · simp [here, same]
    · simp [here, same]
  have roster : ((session.engine.roster.mapValues fun _ actor =>
        if actor.number = awake.number then awake else actor).mapValues fun _ actor =>
          if actor.number = moved.number then moved else actor) =
      session.engine.roster.mapValues fun _ actor =>
        if actor.number = moved.number then moved else actor := by
    refine SortedMap.ext_find? fun key => ?_
    simp only [SortedMap.find?_mapValues, Option.map_map]
    exact congrArg (Option.map · _) (funext twice)
  have leaving : ((session.engine.leaving.map fun actor =>
        if actor.number = awake.number then awake else actor).map fun actor =>
          if actor.number = moved.number then moved else actor) =
      session.engine.leaving.map fun actor =>
        if actor.number = moved.number then moved else actor := by
    rw [List.map_map]
    exact List.map_congr_left fun actor _ => twice actor
  simp only [putActor, withActors, Engine.updateActor, roster, leaving, crew.roster, crew.leaving]

theorem putActor_putActor (session : Session) (same : moved.number = awake.number) :
    (session.putActor awake).putActor moved = session.putActor moved :=
  putActor_withActors (.refl session.engine) same

/-- What an actor finds when it looks is not the matter of its place on the roster. -/
theorem look_putActor (session : Session) (awake : Actor)
    (aside : awake.isEnding = true → ∀ key former,
      session.engine.roster.find? key = some former → former.number ≠ awake.number) :
    (session.putActor awake).look awake = session.look awake := by
  cases ending : awake.isEnding with
  | true =>
      rw [look_of_ending _ ending, look_of_ending _ ending, putActor,
        ← Engine.removeActor_updateActor (aside ending)]
  | false =>
      have begun := session.works_beginCycle awake
      have same := session.beginCycle_withActors (session.putActor awake).engine.roster
        (session.putActor awake).engine.leaving awake
      rw [look_of_lasting _ ending, look_of_lasting _ ending]
      refine Eq.trans (congrArg (fun result : Acting => result.1.putActor result.2) same) ?_
      exact putActor_withActors begun.crew begun.seat.number

theorem now_step (session : Session) (actor : Actor) (pace : Pace) :
    (session.step actor pace).1.now = session.now := by
  have stepped := session.step_cases actor pace
  generalize session.step actor pace = state at stepped
  cases stepped with
  | resumes sending works => exact works.now
  | looks lasting works => exact works.now
  | _ => rfl

/-- The state after some steps of an actor. -/
def steps (number : Nat) : Nat → Session × Pace → Session × Pace
  | 0, state => state
  | count + 1, (session, pace) =>
    match session.engine.actor? number with
    | some actor => steps number count (session.step actor pace)
    | none => (session, pace)

/-- An actor that takes its triggers one after the other comes to look at its application. -/
theorem exists_steps_draining (found : session.engine.actor? number = some actor) (left : Nat)
    {awake : Actor} (same : awake.number = number)
    (aside : (awake.drain left).isEnding = true → ∀ key former,
      session.engine.roster.find? key = some former → former.number ≠ number) :
    ∃ count, steps number count (session.putActor awake, .draining left) =
      (session.look (awake.drain left), .waiting) := by
  have looks : ∀ {awake : Actor}, awake.number = number → (awake.isEnding = true → ∀ key former,
      session.engine.roster.find? key = some former → former.number ≠ number) →
      steps number 1 (session.putActor awake, .looking) = (session.look awake, .waiting) := by
    intro awake same aside
    simp only [steps, actor?_putActor found same, step]
    rw [look_putActor session awake (by rwa [same])]
  induction left generalizing awake with
  | zero =>
      refine ⟨2, ?_⟩
      rw [steps, actor?_putActor found same]
      exact looks same aside
  | succ left ih =>
      cases queued : awake.queue with
      | nil =>
          rw [Actor.drain_of_queue_eq_nil queued] at aside ⊢
          refine ⟨2, ?_⟩
          rw [steps, actor?_putActor found same]
          simp only [step, queued]
          exact looks same aside
      | cons trigger queue =>
          rw [Actor.drain_succ queued] at aside ⊢
          have sameNext : ({ awake with queue := queue }.absorb trigger).number = number := same
          rcases ih sameNext aside with ⟨count, reached⟩
          refine ⟨count + 1, ?_⟩
          rw [steps, actor?_putActor found same]
          simp only [step, queued]
          rw [putActor_putActor session (by rfl), reached]

/-- A move is some steps in a row, unless an actor of the roster ends. -/
theorem exists_steps_eq_moveActor (found : session.engine.actor? number = some actor)
    (aside : ∀ awake, session.awake? actor = some awake → awake.isEnding = true →
      ∀ key former, session.engine.roster.find? key = some former → former.number ≠ number) :
    ∃ count, steps number count (session, .waiting) = (session.moveActor actor, .waiting) := by
  cases rouses : session.roused? actor with
  | none =>
      refine ⟨1, ?_⟩
      simp only [steps, found, step, rouses]
  | some roused =>
      have isNumber := (Engine.mem_of_actor? found).2
      have same := (sameSeat_of_roused? rouses).number.trans isNumber
      have wakes : session.awake? actor =
          some (roused.drain session.engine.config.reconcile.batch) := by
        rw [awake?, rouses, Option.map_some]
      rcases exists_steps_draining found _ same (aside _ wakes) with ⟨count, reached⟩
      refine ⟨count + 1, ?_⟩
      rw [steps, found]
      simp only [step, rouses]
      rw [reached, moveActor_eq_wake rouses]
      rfl

end Session

theorem World.eq_moveActor_of_deed? {world : World} {act : Act} {index number : Nat}
    (about : world.deed? act = some (index, .moveActor number)) :
    act = .moveActor index number := by
  cases act with
  | moveActor member other =>
      cases about
      rfl
  | carryOn errand =>
      rw [deed?] at about
      split at about <;> cases about
  | _ => cases about

/-- A world, and how far every actor of every member is in a move. -/
structure SlowMotion where
  world : World
  pace : Nat → Nat → Pace

namespace SlowMotion

/-- A world in which no actor is in the middle of a move. -/
def new (world : World) : SlowMotion :=
  ⟨world, fun _ _ => .waiting⟩

/-- The world after an actor of a member has come to a session and to a pace. -/
def place (slow : SlowMotion) (member number : Nat) (state : Session × Pace) : SlowMotion where
  world := { slow.world with fleet := slow.world.fleet.putSession member state.1 }
  pace other another :=
    if other = member ∧ another = number then state.2 else slow.pace other another

/-- The world after a step of an actor. -/
def step (slow : SlowMotion) (member number : Nat) : SlowMotion :=
  match slow.world.fleet.session? member with
  | none => slow
  | some session =>
    match session.engine.actor? number with
    | none => slow
    | some actor =>
      slow.place member number (session.step actor (slow.pace member number))

/-- The world after an act, where an actor that moves takes one step only. -/
def after (slow : SlowMotion) : Act → SlowMotion
  | .moveActor member number => slow.step member number
  | act => { slow with world := slow.world.after act }

/-- The world after some acts. -/
def afterAll (slow : SlowMotion) (acts : List Act) : SlowMotion :=
  acts.foldl after slow

variable {slow : SlowMotion} {act : Act} {index number : Nat} {session next : Session}

theorem afterAll_append (slow : SlowMotion) (first rest : List Act) :
    slow.afterAll (first ++ rest) = (slow.afterAll first).afterAll rest := by
  rw [afterAll, List.foldl_append]
  rfl

theorem afterAll_concat (slow : SlowMotion) (acts : List Act) (act : Act) :
    slow.afterAll (acts ++ [act]) = (slow.afterAll acts).after act :=
  slow.afterAll_append acts [act]

/-- What becomes of the session of a member in an act in slow motion. -/
inductive Shift (slow : SlowMotion) (act : Act) (index : Nat) (session : Session) :
    Session → Prop
  /-- An actor of the member takes a step. -/
  | steps {number : Nat} {actor : Actor} (moves : act = .moveActor index number)
      (found : session.engine.actor? number = some actor) :
      Shift slow act index session (session.step actor (slow.pace index number)).1
  /-- The member does something else. -/
  | acts {deed : Deed} (about : slow.world.deed? act = some (index, deed))
      (still : ∀ number, deed ≠ .moveActor number) :
      Shift slow act index session (session.afterDeed deed).1
  /-- The member itself does nothing. -/
  | rests {next : Session} (same : next.engine = session.engine)
      (still : ∀ deed, slow.world.deed? act = some (index, deed) →
        ∃ number, deed = .moveActor number) :
      Shift slow act index session next

theorem step_of_found {member : Nat} {acting : Session} {actor : Actor}
    (found : slow.world.fleet.session? member = some acting)
    (isActor : acting.engine.actor? number = some actor) :
    slow.after (.moveActor member number) =
      slow.place member number (acting.step actor (slow.pace member number)) := by
  rw [after, step, found]
  simp only [isActor]

/-- In slow motion, all but the moves of actors go at the usual speed. -/
theorem after_of_still (still : ∀ member number, act ≠ .moveActor member number) :
    slow.after act = { slow with world := slow.world.after act } := by
  cases act with
  | moveActor member number => exact absurd rfl (still member number)
  | _ => rfl

/-- What a member is like after an act in slow motion comes of what it was like before. -/
theorem shift_after (later : (slow.after act).world.fleet.session? index = some next) :
    ∃ session, slow.world.fleet.session? index = some session ∧
      slow.Shift act index session next := by
  by_cases moves : ∃ member number, act = .moveActor member number
  · rcases moves with ⟨member, number, rfl⟩
    have still : ∀ deed, slow.world.deed? (.moveActor member number) = some (index, deed) →
        ∃ number, deed = .moveActor number := by
      intro deed about
      cases about
      exact ⟨number, rfl⟩
    cases found : slow.world.fleet.session? member with
    | none =>
        rw [after, step, found] at later
        exact ⟨next, later, .rests rfl still⟩
    | some acting =>
        cases isActor : acting.engine.actor? number with
        | none =>
            rw [after, step, found] at later
            simp only [isActor] at later
            exact ⟨next, later, .rests rfl still⟩
        | some actor =>
            rw [step_of_found found isActor] at later
            by_cases same : member = index
            · subst same
              have sameTime := acting.now_step actor (slow.pace member number)
              rw [place, Fleet.session?_putSession_self found sameTime] at later
              obtain rfl := Option.some.inj later
              exact ⟨acting, found, .steps rfl isActor⟩
            · rcases Fleet.session?_putSession_of_ne found same later with
                ⟨former, formerFound, ⟨_, _, _, rfl⟩ | rfl⟩
              · exact ⟨former, formerFound, .rests rfl still⟩
              · exact ⟨next, formerFound, .rests rfl still⟩
  · have still : ∀ member number, act ≠ .moveActor member number :=
      fun member number same => moves ⟨member, number, same⟩
    rw [after_of_still still] at later
    rcases World.shift_after later with ⟨session, found, shift⟩
    refine ⟨session, found, ?_⟩
    cases shift with
    | acts about =>
        refine .acts about fun number isMove => ?_
        subst isMove
        exact still index number (World.eq_moveActor_of_deed? about)
    | follows about different found shared same =>
        refine .rests rfl fun deed aboutThis => ?_
        cases about.symm.trans aboutThis
        exact absurd rfl different
    | passes now idle => exact .rests rfl fun deed about => absurd about (idle deed)

/-- What holds of a member at first, and what every act keeps, holds after every run. -/
theorem afterAll_induction {motive : SlowMotion → Session → Prop}
    (first : ∀ session, slow.world.fleet.session? index = some session → motive slow session)
    (step : ∀ slow act former session, slow.world.fleet.session? index = some former →
      motive slow former → slow.Shift act index former session →
        motive (slow.after act) session)
    {acts : List Act} (found : (slow.afterAll acts).world.fleet.session? index = some session) :
    motive (slow.afterAll acts) session := by
  induction acts using List.reverseRecOn generalizing session with
  | nil => exact first session found
  | append_singleton acts act ih =>
      rw [afterAll_concat] at found ⊢
      rcases shift_after found with ⟨former, formerFound, shift⟩
      exact step _ act former session formerFound (ih formerFound) shift

end SlowMotion

namespace Session

variable {session next : Session} {number : Nat} {actor moved : Actor} {pace : Pace}
  {state : Session × Pace}

theorem find?_putActor (crew : session.engine.SameCrew next.engine) (moved : Actor)
    (key : ActorKey) :
    (next.putActor moved).engine.roster.find? key = (session.engine.roster.find? key).map
      fun former => if former.number = moved.number then moved else former := by
  rw [putActor, Engine.find?_updateActor, crew.roster]

/-- An actor that is put down again is on the roster where it was. -/
theorem find?_putActor_self (crew : session.engine.SameCrew next.engine) {key : ActorKey}
    (present : session.engine.roster.find? key = some actor) (same : moved.number = actor.number) :
    (next.putActor moved).engine.roster.find? key = some moved := by
  rw [find?_putActor crew, present, Option.map_some, if_pos same.symm]

theorem sameNumbers_putActor (crew : session.engine.SameCrew next.engine) (moved : Actor) :
    session.engine.SameNumbers (next.putActor moved).engine := by
  refine ⟨?_, ?_, crew.actorsStarted⟩
  · intro key actor present
    rw [find?_putActor crew, Option.map_eq_some_iff] at present
    rcases present with ⟨former, found, rfl⟩
    refine ⟨former, found, ?_⟩
    split
    · rename_i same
      exact same.symm
    · rfl
  · intro actor left
    rcases List.mem_map.mp left with ⟨former, found, rfl⟩
    rw [crew.leaving] at found
    refine ⟨former, found, ?_⟩
    split
    · rename_i same
      exact same.symm
    · rfl

theorem Step.sameNumbers (step : session.Step actor pace state) :
    session.engine.SameNumbers state.1.engine := by
  cases step with
  | resumes sending works => exact sameNumbers_putActor works.crew _
  | looks lasting works => exact sameNumbers_putActor works.crew _
  | ends =>
      exact ⟨(Engine.SameNumbers.refl _).roster,
        fun former left => ⟨former, List.mem_of_mem_filter left, rfl⟩, rfl⟩
  | waits => exact .refl _
  | turns left => exact .refl _
  | _ => exact sameNumbers_putActor (.refl _) _

theorem Step.loops (step : session.Step actor pace state) :
    state.1.engine.loops = session.engine.loops := by
  cases step with
  | resumes sending works => exact works.crew.loops
  | looks lasting works => exact works.crew.loops
  | _ => rfl

theorem Step.config (step : session.Step actor pace state) :
    state.1.engine.config = session.engine.config := by
  cases step with
  | resumes sending works => exact works.crew.config
  | looks lasting works => exact works.crew.config
  | _ => rfl

/-- A step changes no other actor of the roster, and no callers come or go. -/
theorem Step.recalls (step : session.Step actor pace state) (numbered : session.engine.Numbered)
    (found : session.engine.actor? number = some actor) {key : ActorKey} {later : Actor}
    (present : state.1.engine.roster.find? key = some later) :
    ∃ former, session.engine.roster.find? key = some former ∧ former.SameSeat later ∧
      (former.number ≠ number → later = former) := by
  have isNumber := (Engine.mem_of_actor? found).2
  have put : ∀ {next : Session} {moved : Actor}, session.engine.SameCrew next.engine →
      actor.SameSeat moved → (next.putActor moved).engine.roster.find? key = some later →
      ∃ former, session.engine.roster.find? key = some former ∧ former.SameSeat later ∧
        (former.number ≠ number → later = former) := by
    intro next moved crew seat present
    rw [find?_putActor crew, Option.map_eq_some_iff] at present
    rcases present with ⟨former, formerFound, rfl⟩
    refine ⟨former, formerFound, ?_⟩
    split
    · rename_i here
      have same := here.trans (seat.number.trans isNumber)
      rw [numbered.eq_of_actor? found formerFound same]
      exact ⟨seat, fun elsewhere => absurd isNumber elsewhere⟩
    · exact ⟨.refl former, fun _ => rfl⟩
  have kept : session.engine.roster.find? key = some later →
      ∃ former, session.engine.roster.find? key = some former ∧ former.SameSeat later ∧
        (former.number ≠ number → later = former) :=
    fun present => ⟨later, present, .refl later, fun _ => rfl⟩
  cases step with
  | waits => exact kept present
  | turns left => exact kept present
  | ends => exact kept present
  | resumes sending works => exact put works.crew works.seat present
  | looks lasting works => exact put works.crew works.seat present
  | absorbs seat => exact put (.refl _) seat present
  | receives left seat => exact put (.refl _) seat present
  | takes left seat => exact put (.refl _) seat present

end Session

end Reconciler
