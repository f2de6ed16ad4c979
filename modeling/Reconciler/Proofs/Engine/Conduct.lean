import Reconciler.Proofs.Engine.Offers

/-!
# How actors conduct themselves

A move of an actor leaves the session as it is but for what offering commands brings about, and but
for the actor itself; only at the end of a graceful teardown the store changes as well.
`Session.conduct_moveActor` says so, together with the commands that are offered in the move.
-/

namespace Reconciler

namespace Session

/--
An actor at work on a cycle, which it has just begun or goes on with: the actor, the number of
actions of the cycle, and the actions that are still to be dispatched.
-/
inductive Engaged (session : Session) (actor : Actor) : Actor → Nat → List RequiredAction → Prop
  | begins {awake : Actor} {actions : List RequiredAction}
      (wakes : session.awake? actor = some awake) (lasting : awake.isEnding = false)
      (allowed : session.mayLook awake = true) (missing : session.missing awake = .ok actions) :
      Engaged session actor awake.dispatching actions.length actions
  | resumes {cycle : Cycle} {command : Command} {answersAt : Nat}
      (sending : actor.stage = .sending cycle command answersAt)
      (answered : answersAt ≤ session.now.elapsed) :
      Engaged session actor actor cycle.total cycle.remaining

/-- What becomes of the intent of an actor at the end of a cycle: a teardown may be complete. -/
def Tires (intent next : Intent) : Prop :=
  next = intent ∨ next = .dormant ∧ ∃ mode, intent = .teardown mode

/-- What a move of an actor comes to: the commands that are offered, and the session after it. -/
inductive Conduct (session : Session) (actor : Actor) : List Command → Session → Prop
  /-- There is nothing to do yet. -/
  | waits : Conduct session actor [] session
  /-- The actor takes a trigger, and waits for more. -/
  | absorbs {trigger : Trigger} {awake : Actor} {deadline : Nat}
      (takes : actor.Takes [trigger] awake) (background : trigger.isBackground = true) :
      Conduct session actor [] (session.putActor { awake with stage := .debouncing deadline })
  /-- The actor ends. -/
  | ends {awake : Actor} (wakes : session.awake? actor = some awake)
      (ending : awake.isEnding = true) :
      Conduct session actor []
        { session with engine := session.engine.removeActor awake.number }
  /-- The actor has taken its triggers, and begins no cycle. -/
  | declines {awake : Actor} {next : Session} (wakes : session.awake? actor = some awake)
      (lasting : awake.isEnding = false) (dispatches : session.Dispatches [] next)
      (status : ActorStatus) :
      Conduct session actor []
        (next.putActor { awake with stage := .receiving, status := status })
  /-- The actor comes to the end of a cycle. -/
  | settles {base : Actor} {total : Nat} {actions : List RequiredAction}
      {offered : List Command} {next : Session} {intent : Intent}
      (engaged : session.Engaged actor base total actions)
      (dispatches : session.Dispatches offered next) (tires : Tires base.intent intent)
      (status : ActorStatus) :
      Conduct session actor offered
        (next.putActor { base with stage := .receiving, status := status, intent := intent })
  /-- The actor has to wait for the transport in the middle of a cycle. -/
  | sends {base : Actor} {total : Nat} {actions remaining : List RequiredAction}
      {offered : List Command} {next : Session}
      (engaged : session.Engaged actor base total actions)
      (dispatches : session.Dispatches offered next) (something : actions ≠ [])
      (part : remaining <:+ actions) (sent : Nat) (command : Command) (answersAt : Nat) :
      Conduct session actor offered
        (next.putActor
          { base with stage := .sending ⟨total, sent, remaining⟩ command answersAt })
  /-- The actor deletes its application from the store; if it has just woken up, right then. -/
  | erases {base : Actor} {actions : List RequiredAction} {offered : List Command}
      {middle next : Session} {backend : Backend} (engaged : session.Engaged actor base 0 actions)
      (before : session.Dispatches offered middle)
      (untouched : (session.awake? actor).isSome → middle = session)
      (erases : middle.Erases base backend) (after : middle.Dispatches [] next)
      (status : ActorStatus) :
      Conduct session actor offered
        (({ next with backend := backend } : Session).putActor
          { base with stage := .receiving, status := status, intent := .dormant })

variable {session next : Session} {actor : Actor}

/-- But for the store and the actors, a move comes to what the offering of its commands does. -/
theorem Conduct.exists_eq {offered : List Command}
    (conduct : session.Conduct actor offered next) :
    ∃ middle backend roster leaving, session.Dispatches offered middle ∧
      next = { middle with
        backend := backend
        engine := { middle.engine with roster := roster, leaving := leaving } } := by
  cases conduct with
  | waits => exact ⟨_, _, _, _, .refl session, rfl⟩
  | absorbs takes background => exact ⟨_, _, _, _, .refl session, rfl⟩
  | ends wakes ending => exact ⟨_, _, _, _, .refl session, rfl⟩
  | declines wakes lasting dispatches status => exact ⟨_, _, _, _, dispatches, rfl⟩
  | settles engaged dispatches tires status => exact ⟨_, _, _, _, dispatches, rfl⟩
  | sends engaged dispatches => exact ⟨_, _, _, _, dispatches, rfl⟩
  | erases engaged before untouched erases after status =>
      have dispatches := before.trans after
      rw [List.append_nil] at dispatches
      exact ⟨_, _, _, _, dispatches, rfl⟩

theorem awake?_eq_none_of_sending {cycle : Cycle} {command : Command} {answersAt : Nat}
    (sending : actor.stage = .sending cycle command answersAt) : session.awake? actor = none :=
  awake?_eq_none (by simp [roused?, sending])

theorem offersOfActor_of_sending {cycle : Cycle} {command : Command} {answersAt : Nat}
    (sending : actor.stage = .sending cycle command answersAt) :
    session.offersOfActor actor =
      if answersAt ≤ session.now.elapsed then session.offersOfRest actor.key cycle command
      else [] := by
  rw [offersOfActor, sending]

theorem offersOfActor_of_asleep (asleep : session.awake? actor = none)
    (unanswered : ∀ cycle command answersAt, actor.stage = .sending cycle command answersAt →
      session.now.elapsed < answersAt) : session.offersOfActor actor = [] := by
  rw [offersOfActor]
  split
  · rename_i cycle command answersAt sending
    rw [if_neg (Nat.not_le_of_lt (unanswered cycle command answersAt sending))]
  · rw [asleep]

theorem offersOfActor_of_awake {awake : Actor} (wakes : session.awake? actor = some awake) :
    session.offersOfActor actor =
      if !awake.isEnding && session.mayLook awake then
        match session.missing awake with
        | .ok actions => session.offersOfActions actor.key actions
        | .error _ => []
      else [] := by
  rw [offersOfActor]
  split
  · rename_i cycle command answersAt sending
    rw [awake?_eq_none_of_sending sending] at wakes
    cases wakes
  · cases missing : session.missing awake with
    | ok actions => simp only [wakes, missing]
    | error problem => simp only [wakes, missing]

/-- What an actor offers are new commands for its own application, for actions of a cycle. -/
theorem engaged_of_mem_offersOfActor {command : Command}
    (offered : command ∈ session.offersOfActor actor) :
    command.lattice = actor.key.lattice ∧ command.app = actor.key.app ∧ command.attempt = 1 ∧
      ∃ base total actions, session.Engaged actor base total actions ∧
        command.action ∈ actions := by
  cases wakes : session.awake? actor with
  | some awake =>
      rw [offersOfActor_of_awake wakes] at offered
      split at offered
      · rename_i looks
        rw [Bool.and_eq_true, Bool.not_eq_true'] at looks
        split at offered
        · rename_i actions missing
          rcases mem_offersOfActions offered with ⟨member, lattice, app, first⟩
          exact ⟨lattice, app, first, _, _, _, .begins wakes looks.1 looks.2 missing, member⟩
        · cases offered
      · cases offered
  | none =>
      by_cases answered : ∃ cycle command answersAt,
          actor.stage = .sending cycle command answersAt ∧ answersAt ≤ session.now.elapsed
      · rcases answered with ⟨cycle, last, answersAt, sending, answered⟩
        rw [offersOfActor_of_sending sending, if_pos answered, offersOfRest] at offered
        split at offered
        · rcases mem_offersOfActions offered with ⟨member, lattice, app, first⟩
          exact ⟨lattice, app, first, _, _, _, .resumes sending answered, member⟩
        · cases offered
      · rw [offersOfActor_of_asleep wakes] at offered
        · cases offered
        · intro cycle last answersAt sending
          by_contra late
          exact answered ⟨cycle, last, answersAt, sending, Nat.le_of_not_lt late⟩

/-- A cycle that has come to its end settles, unless it completes a teardown. -/
theorem Finishing.conduct {base : Actor} {total : Nat} {actions : List RequiredAction}
    {offered : List Command} {middle : Session} {result : Acting}
    (engaged : session.Engaged actor base total actions)
    (before : session.Dispatches offered middle)
    (untouched : (session.awake? actor).isSome → total = 0 → middle = session)
    (finishing : middle.Finishing base total result) :
    session.Conduct actor offered (result.1.putActor result.2) := by
  cases finishing with
  | rests dispatches status =>
      have settled := before.trans dispatches
      rw [List.append_nil] at settled
      exact .settles engaged settled (Or.inl rfl) status
  | retires dispatches tearing status =>
      have settled := before.trans dispatches
      rw [List.append_nil] at settled
      exact .settles engaged settled (Or.inr ⟨rfl, _, tearing⟩) status
  | erases dispatches complete erases status =>
      subst complete
      exact .erases engaged before (fun wakes => untouched wakes rfl) erases dispatches status

/-- What the dispatching of the actions of a cycle comes to. -/
theorem Dispatching.conduct {base : Actor} {total : Nat} {actions : List RequiredAction}
    {first rest : List Command} {opening : Session} {result : Acting}
    (engaged : session.Engaged actor base total actions)
    (before : session.Dispatches first opening)
    (untouched : (session.awake? actor).isSome → opening = session ∧ total = actions.length)
    (dispatching : opening.Dispatching base total actions rest result) :
    session.Conduct actor (first ++ rest) (result.1.putActor result.2) := by
  cases dispatching with
  | stays dispatches something part sent command answersAt =>
      exact .sends engaged (before.trans dispatches) something part sent command answersAt
  | finishes dispatches nothing sent =>
      refine Finishing.conduct engaged (before.trans dispatches) ?_
        (finishing_finishCycle _ base ⟨total, sent, []⟩)
      intro wakes complete
      rcases untouched wakes with ⟨same, rfl⟩
      rw [nothing (List.eq_nil_of_length_eq_zero complete), same]

variable (session actor)

theorem conduct_moveActor :
    session.Conduct actor (session.offersOfActor actor) (session.moveActor actor) := by
  have moves := session.move_cases actor
  generalize session.moveActor actor = last at moves
  cases moves with
  | waits asleep unanswered =>
      rw [offersOfActor_of_asleep asleep unanswered]
      exact .waits
  | absorbs asleep waiting takes background =>
      rw [offersOfActor_of_asleep asleep fun _ _ _ sending => absurd sending (waiting _ _ _)]
      exact .absorbs takes background
  | ends wakes ending =>
      rw [offersOfActor_of_awake wakes, ending]
      exact .ends wakes ending
  | declines wakes lasting barred =>
      rw [offersOfActor_of_awake wakes, barred, Bool.and_false]
      exact .declines wakes lasting (.refl session) _
  | @fails awake problem wakes lasting allowed unknown =>
      rw [offersOfActor_of_awake wakes, unknown]
      simp only [ite_self]
      exact .declines wakes lasting (session.dispatches_noteStoreError problem) _
  | @begins awake actions next wakes lasting allowed missing leads =>
      rcases takes_awake? wakes with ⟨taken, takes⟩
      rw [offersOfActor_of_awake wakes, lasting, allowed, missing, ← leads, ← takes.key]
      exact Dispatching.conduct (.begins wakes lasting allowed missing) (.refl session)
        (fun _ => ⟨rfl, rfl⟩)
        (session.dispatching_dispatchAll awake.dispatching actions.length 0 actions)
  | @resumes cycle command answersAt next sending answered leads =>
      -- The transport answers to the command before anything else is offered, so the session is no
      -- longer untouched; that only matters to an actor that has just woken up.
      have engaged := Engaged.resumes sending answered
      have asleep : ¬(session.awake? actor).isSome := by
        simp [awake?_eq_none_of_sending sending]
      have transmitted := session.dispatches_transmit command
      rw [offersOfActor_of_sending sending, if_pos answered, ← leads, offersOfRest, resumeCycle]
      rcases answer : session.transmit command with ⟨opening, problem | outcome⟩
      · rw [answer] at transmitted
        have noted := transmitted.trans (opening.dispatches_noteDispatchError problem)
        exact Finishing.conduct engaged noted (fun wakes => absurd wakes asleep)
          (finishing_finishCycle _ actor cycle)
      · rw [answer] at transmitted
        exact Dispatching.conduct engaged transmitted (fun wakes => absurd wakes asleep)
          (opening.dispatching_dispatchAll actor cycle.total (cycle.sent + 1) cycle.remaining)

end Session

end Reconciler
