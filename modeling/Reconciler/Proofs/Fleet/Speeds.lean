import Reconciler.Proofs.Fleet.Punctuality

/-!
# Slow motion and the usual speed

Whatever happens at the usual speed happens in slow motion as well, if every actor that moves takes
all the steps of its move before anything else happens. So what is shown of all runs in slow motion
holds of all runs.
-/

namespace Reconciler

/-- A prefix that does not end with one of the last members of a list is a prefix of the others. -/
theorem prefix_of_concat_prefix_append {α : Type} {done first rest : List α} {last : α}
    (part : done ++ [last] <+: first ++ rest) (outside : last ∉ rest) :
    done ++ [last] <+: first := by
  rcases List.prefix_or_prefix_of_prefix part (List.prefix_append first rest) with within | beyond
  · exact within
  · rcases List.prefix_concat_iff.mp beyond with same | ⟨more, rfl⟩
    · exact same ▸ List.prefix_rfl
    · rw [List.append_assoc, List.prefix_append_right_inj] at part
      exact absurd (part.subset (List.mem_append_right _ List.mem_cons_self)) outside

theorem Session.steps_of_missing {session : Session} {number : Nat}
    (missing : session.engine.actor? number = none) (count : Nat) (pace : Pace) :
    steps number count (session, pace) = (session, pace) := by
  cases count with
  | zero => rfl
  | succ count => simp only [steps, missing]

namespace SlowMotion

variable {slow : SlowMotion} {member number : Nat} {session : Session} {world : World}

theorem place_place (state last : Session × Pace) :
    (slow.place member number state).place member number last =
      slow.place member number last := by
  simp only [place, Fleet.putSession_putSession]
  congr 1
  funext other another
  split <;> rfl

theorem place_self (found : slow.world.fleet.session? member = some session) :
    slow.place member number (session, slow.pace member number) = slow := by
  rw [place, Fleet.putSession_self found]
  congr 1
  funext other another
  split
  · rename_i here
    rw [here.1, here.2]
  · rfl

/-- An actor that steps again and again comes as far as so many steps in a row take it. -/
theorem afterAll_replicate (found : slow.world.fleet.session? member = some session)
    (count : Nat) : slow.afterAll (.replicate count (.moveActor member number)) =
      slow.place member number
        (Session.steps number count (session, slow.pace member number)) := by
  induction count generalizing slow session with
  | zero => exact (place_self found).symm
  | succ count ih =>
      rw [List.replicate_succ]
      change (slow.after (.moveActor member number)).afterAll _ = _
      cases isActor : session.engine.actor? number with
      | none =>
          have still : slow.after (.moveActor member number) = slow := by
            rw [after, step, found]
            simp only [isActor]
          rw [still, ih found, Session.steps_of_missing isActor,
            Session.steps_of_missing isActor]
      | some actor =>
          have sameTime := session.now_step actor (slow.pace member number)
          rw [step_of_found found isActor,
            ih (Fleet.session?_putSession_self found sameTime), place_place]
          simp only [Session.steps, isActor, place, and_self, if_true]

/-- An actor that has been told to end when it wakes up is off the roster. -/
theorem Tidy.aside_of_isEnding (tidy : slow.Tidy member session) {actor awake : Actor}
    (isActor : session.engine.actor? number = some actor)
    (wakes : session.awake? actor = some awake) (ending : awake.isEnding = true)
    {key : ActorKey} {former : Actor} (present : session.engine.roster.find? key = some former) :
    former.number ≠ number := by
  intro same
  obtain rfl := tidy.numbered.eq_of_actor? isActor present same
  rcases Session.takes_awake? wakes with ⟨taken, takes⟩
  cases (takes.isLasting (tidy.lasting key former present)).lasting.symm.trans ending

/-- A move is some steps in a row. -/
theorem exists_afterAll_eq_moveActor (tidy : ∀ session,
      world.fleet.session? member = some session → (new world).Tidy member session) :
    ∃ count, (new world).afterAll (.replicate count (.moveActor member number)) =
      new (world.after (.moveActor member number)) := by
  have about : world.deed? (.moveActor member number) = some (member, .moveActor number) := rfl
  cases found : world.fleet.session? member with
  | none =>
      refine ⟨0, ?_⟩
      rw [World.after, about]
      simp only [found]
      rfl
  | some session =>
      rw [World.after_of_deed? about found, Session.afterDeed]
      cases isActor : session.engine.actor? number with
      | none =>
          refine ⟨0, ?_⟩
          simp only [Fleet.putSession_self found]
          rfl
      | some actor =>
          rcases Session.exists_steps_eq_moveActor isActor fun _ wakes ending _ _ present =>
              (tidy session found).aside_of_isEnding isActor wakes ending present with
            ⟨count, moved⟩
          refine ⟨count, ?_⟩
          have isPlaced : (new world).afterAll (.replicate count (.moveActor member number)) =
              (new world).place member number (Session.steps number count (session, .waiting)) :=
            afterAll_replicate found count
          rw [isPlaced, moved, place, new, new]
          congr 1
          funext other another
          exact ite_self _

/--
Every run is one in slow motion, with some steps for each move. Time passes in it only where it did
before, while no actor is in the middle of a move.
-/
theorem exists_afterAll_eq_new (isFresh : world.IsFresh) (acts : List Act) :
    ∃ slower, (new world).afterAll slower = new (world.afterAll acts) ∧
      ∀ done act, done ++ [act] <+: slower → 0 < act.millis →
        ∃ sooner, sooner ++ [act] <+: acts ∧
          (new world).afterAll done = new (world.afterAll sooner) := by
  induction acts using List.reverseRecOn with
  | nil => exact ⟨[], rfl, fun done act part => absurd (List.prefix_nil.mp part) (by simp)⟩
  | append_singleton acts act ih =>
      rcases ih with ⟨slower, reached, timely⟩
      have sooner : ∀ done other, done ++ [other] <+: slower → 0 < other.millis →
          ∃ sooner, sooner ++ [other] <+: acts ++ [act] ∧
            (new world).afterAll done = new (world.afterAll sooner) := by
        intro done other part passes
        rcases timely done other part passes with ⟨sooner, within, same⟩
        exact ⟨sooner, within.trans (List.prefix_append _ _), same⟩
      rw [World.afterAll_concat]
      by_cases moves : ∃ member number, act = .moveActor member number
      · rcases moves with ⟨member, number, rfl⟩
        have tidy : ∀ session, (world.afterAll acts).fleet.session? member = some session →
            (new (world.afterAll acts)).Tidy member session := by
          intro session found
          rw [← reached]
          exact tidy_afterAll isFresh (by rw [reached]; exact found)
        rcases exists_afterAll_eq_moveActor tidy with ⟨count, moved⟩
        refine ⟨slower ++ .replicate count (.moveActor member number), ?_, ?_⟩
        · rw [afterAll_append, reached, moved]
        · intro done other part passes
          refine sooner done other (prefix_of_concat_prefix_append part ?_) passes
          intro member
          cases List.eq_of_mem_replicate member
          cases passes
      · have still : ∀ member number, act ≠ .moveActor member number :=
          fun member number same => moves ⟨member, number, same⟩
        refine ⟨slower ++ [act], ?_, ?_⟩
        · rw [afterAll_concat, reached, after_of_still still]
          rfl
        · intro done other part passes
          rcases List.prefix_concat_iff.mp part with whole | within
          · rcases List.append_inj' whole rfl with ⟨rfl, same⟩
            cases same
            exact ⟨acts, List.prefix_rfl, reached⟩
          · exact sooner done other within passes

end SlowMotion

end Reconciler
