import Reconciler.Proofs.Fleet.Lines

/-!
# Punctual runs

In a run anything may happen after anything else. A run is punctual for an actor if time passes
only when the actor has nothing to do, and not beyond the time that the actor waits for.
-/

namespace Reconciler

/-- The milliseconds that pass in an act. -/
def Act.millis : Act → Nat
  | .wait millis _ => millis
  | _ => 0

theorem World.elapsed_after (world : World) (act : Act) :
    (world.after act).fleet.now.elapsed = world.fleet.now.elapsed + act.millis := by
  cases about : world.deed? act with
  | none =>
      rw [after, about]
      cases act <;> rfl
  | some doing =>
      have quick : act.millis = 0 := by
        cases act with
        | wait millis wall => cases about
        | _ => rfl
      rw [after, about, quick]
      simp only
      split
      · rfl
      · rw [Fleet.now_putSession, Nat.add_zero]

namespace SlowMotion

/-- The milliseconds that have passed in a run. -/
def time (slow : SlowMotion) : Nat :=
  slow.world.fleet.now.elapsed

/-- An actor of a member has something to do right now. -/
def CanStep (slow : SlowMotion) (index : Nat) (actor : Actor) : Prop :=
  slow.pace index actor.number ≠ .waiting ∨ actor.canMove slow.time = true

instance (slow : SlowMotion) (index : Nat) (actor : Actor) : Decidable (slow.CanStep index actor) :=
  inferInstanceAs (Decidable (_ ∨ _))

/--
No time passes in an act while an actor of a member has something to do, nor beyond the time that
the actor waits for.
-/
def IsPunctual (slow : SlowMotion) (act : Act) (index : Nat) (actor : Actor) : Prop :=
  0 < act.millis →
    ¬slow.CanStep index actor ∧ ∀ deadline ∈ actor.deadline?, slow.time + act.millis ≤ deadline

instance (slow : SlowMotion) (act : Act) (index : Nat) (actor : Actor) :
    Decidable (slow.IsPunctual act index actor) :=
  inferInstanceAs (Decidable (_ → _ ∧ _))

variable {slow : SlowMotion} {act : Act} {index : Nat} {session next : Session} {actor : Actor}

theorem elapsed_of_session? (found : slow.world.fleet.session? index = some session) :
    session.now.elapsed = slow.time := by
  rcases Fleet.session?_eq_some_iff.mp found with ⟨member, _, rfl⟩
  rfl

/-- Steps of actors take no time. -/
theorem time_after (slow : SlowMotion) (act : Act) :
    (slow.after act).time = slow.time + act.millis := by
  by_cases moves : ∃ member number, act = .moveActor member number
  · rcases moves with ⟨member, number, rfl⟩
    rw [after, step]
    split
    · rfl
    · split
      · rfl
      · exact congrArg Moment.elapsed (Fleet.now_putSession _ _ _)
  · rw [after_of_still fun member number same => moves ⟨member, number, same⟩]
    exact slow.world.elapsed_after act

/-- Where time passes, nothing else happens. -/
theorem engine_after_of_millis (passes : 0 < act.millis)
    (found : slow.world.fleet.session? index = some session)
    (foundNext : (slow.after act).world.fleet.session? index = some next) :
    next.engine = session.engine := by
  rcases shift_after foundNext with ⟨former, formerFound, shift⟩
  obtain rfl := Option.some.inj (formerFound.symm.trans found)
  cases act with
  | wait millis wall =>
      cases shift with
      | steps moves => cases moves
      | acts about => cases about
      | rests same => exact same
  | _ => cases passes

/-- What a member is configured to do stays the same throughout. -/
theorem config_after (found : slow.world.fleet.session? index = some session)
    (foundNext : (slow.after act).world.fleet.session? index = some next) :
    next.engine.config = session.engine.config := by
  rcases shift_after foundNext with ⟨former, formerFound, shift⟩
  obtain rfl := Option.some.inj (formerFound.symm.trans found)
  cases shift with
  | steps => exact (former.step_cases _ _).config
  | acts about still =>
      rcases former.serves_afterDeed still with ⟨orders, served, _⟩
      exact served.config
  | rests same => rw [same]

/-- No time passes while an actor has something to do. -/
theorem IsPunctual.millis_eq_zero (punctual : slow.IsPunctual act index actor)
    (can : slow.CanStep index actor) : act.millis = 0 := by
  by_contra passes
  exact (punctual (Nat.pos_of_ne_zero passes)).1 can

end SlowMotion

end Reconciler
