import Reconciler.Proofs.Fleet.Cycles
import Reconciler.Proofs.Fleet.Offers

/-!
# Engines that have stopped acting

An engine that has stopped acting begins no cycle until it is asked to recover. It still offers
commands in two ways: sweeps send commands again whose time has come, and cycles that wait for the
transport go on when it answers.
-/

namespace Reconciler

namespace Session

variable {deed : Deed} {doing : Option Chore} {session next : Session}

theorem Service.health {offered : List Command} {orders : List Order}
    (service : Service deed doing session offered orders next) (unasked : deed ≠ .answer .recover)
    (stopped : session.engine.health.isHealthy = false) :
    next.engine.health = session.engine.health := by
  cases service with
  | dispatches dispatches => exact dispatches.stopped stopped
  | recovers asked => exact absurd asked unasked
  | @hires key absent intent active =>
      rw [Engine.ensureActor, absent]
  | @delivers number trigger isWaiting _ =>
      rcases session.exists_deliver_eq number trigger isWaiting with ⟨roster, leaving, same⟩
      rw [same]
  | takesOff key =>
      rcases session.exists_takeOff_eq key with ⟨roster, leaving, same⟩
      rw [same]
  | _ => rfl

theorem Serves.health {offered : List Command} {orders : List Order}
    (serves : session.Serves deed doing offered orders next) (unasked : deed ≠ .answer .recover)
    (stopped : session.engine.health.isHealthy = false) :
    next.engine.health = session.engine.health := by
  induction serves with
  | refl _ => rfl
  | head service _ ih =>
      have same := service.health unasked stopped
      exact (ih (by rwa [same])).trans same

theorem Conduct.health {actor : Actor} {offered : List Command}
    (conduct : session.Conduct actor offered next)
    (stopped : session.engine.health.isHealthy = false) :
    next.engine.health = session.engine.health := by
  rcases conduct.exists_eq with ⟨middle, _, _, _, dispatches, rfl⟩
  exact dispatches.stopped stopped

/-- An engine that has stopped stays so until it is asked to recover. -/
theorem health_afterDeed (session : Session) (unasked : deed ≠ .answer .recover)
    (stopped : session.engine.health.isHealthy = false) :
    (session.afterDeed deed).1.engine.health = session.engine.health := by
  rcases session.conduct_or_serves_afterDeed deed with ⟨_, _, _, _, conduct⟩ | ⟨_, serves⟩
  · exact conduct.health stopped
  · exact serves.health unasked stopped

theorem mayLook_of_stopped (stopped : session.engine.health.isHealthy = false) (actor : Actor) :
    session.mayLook actor = false := by
  rw [mayLook, stopped, Bool.and_false, Bool.false_and]

/-- What is left of the cycles that are under way, of which no others begin. -/
def OnlyGoesOn (session next : Session) : Prop :=
  ∀ actor ∈ next.engine.actors, ∀ cycle command answersAt,
    actor.stage = .sending cycle command answersAt →
      ∃ former ∈ session.engine.actors, ∃ begun first time,
        former.number = actor.number ∧ former.key = actor.key ∧
        former.stage = .sending begun first time ∧ cycle.total = begun.total ∧
        cycle.remaining <:+ begun.remaining

theorem OnlyGoesOn.refl (session : Session) : session.OnlyGoesOn session :=
  fun actor member cycle command answersAt sending =>
    ⟨actor, member, cycle, command, answersAt, rfl, rfl, sending, rfl, List.suffix_rfl⟩

theorem OnlyGoesOn.trans {last : Session} (goesOn : session.OnlyGoesOn next)
    (more : next.OnlyGoesOn last) : session.OnlyGoesOn last := by
  intro actor member cycle command answersAt sending
  rcases more actor member cycle command answersAt sending with
    ⟨middle, middleMember, middleCycle, middleCommand, middleTime, number, key, middleSending,
      total, left⟩
  rcases goesOn middle middleMember middleCycle middleCommand middleTime middleSending with
    ⟨former, formerMember, begun, first, time, formerNumber, formerKey, formerSending,
      formerTotal, formerLeft⟩
  exact ⟨former, formerMember, begun, first, time, formerNumber.trans number,
    formerKey.trans key, formerSending, total.trans formerTotal, left.trans formerLeft⟩

theorem onlyGoesOn_afterDeed (session : Session) (deed : Deed)
    (stopped : session.engine.health.isHealthy = false) :
    session.OnlyGoesOn (session.afterDeed deed).1 := by
  intro actor member cycle command answersAt sending
  rcases session.sending_afterDeed deed member sending with
    ⟨former, formerMember, same⟩ |
      ⟨_, former, base, actions, found, engaged, _, left, key, _⟩
  · exact ⟨former, formerMember, cycle, command, answersAt, same.number.symm, same.key.symm,
      same.stage ▸ sending, rfl, List.suffix_rfl⟩
  · generalize whole : cycle.total = total at engaged
    cases engaged with
    -- An actor would look at its application first, which none does while the engine is stopped.
    | begins wakes lasting allowed missing =>
        rw [mayLook_of_stopped stopped] at allowed
        cases allowed
    | @resumes begun first time formerSending answered =>
        have moved := Engine.mem_of_actor? found
        exact ⟨former, moved.1, begun, first, time, moved.2, key.symm, formerSending, rfl, left⟩

/-- What an engine that has stopped acting still offers. -/
theorem offers_ne_nil_iff_of_stopped (stopped : session.engine.health.isHealthy = false)
    (deed : Deed) :
    session.offers deed ≠ [] ↔
      (∃ entry, session.Resends deed entry) ∨
        ∃ actor action, session.Resumes deed actor action := by
  constructor
  · intro offering
    rcases List.exists_mem_of_ne_nil _ offering with ⟨command, offered⟩
    rcases mem_offers_iff.mp offered with
      ⟨entry, resends, _⟩ | ⟨number, actor, rfl, found, member⟩
    · exact Or.inl ⟨entry, resends⟩
    · right
      refine ⟨actor, (offersOfActor_ne_nil_iff_of_barred found fun awake _ =>
        mayLook_of_stopped stopped awake).mp ?_⟩
      exact List.ne_nil_of_mem member
  · rintro (⟨entry, resends⟩ | ⟨actor, action, resumes⟩)
    · exact List.ne_nil_of_mem (mem_offers_iff.mpr (Or.inl ⟨entry, resends, rfl⟩))
    · rcases resumes.moves with ⟨number, rfl, found⟩
      have offering := (offersOfActor_ne_nil_iff_of_barred found fun awake _ =>
        mayLook_of_stopped stopped awake).mpr ⟨action, resumes⟩
      rcases List.exists_mem_of_ne_nil _ offering with ⟨command, member⟩
      exact List.ne_nil_of_mem
        (mem_offers_iff.mpr (Or.inr ⟨number, actor, rfl, found, member⟩))

end Session

namespace World

variable {world : World} {index : Nat} {session next : Session}

theorem Shift.of_stopped {act : Act} (shift : world.Shift act index session next)
    (unasked : act ≠ .ask index .recover)
    (stopped : session.engine.health.isHealthy = false) :
    next.engine.health = session.engine.health ∧ session.OnlyGoesOn next := by
  cases shift with
  | @acts deed about =>
      have other : deed ≠ .answer .recover := by
        rintro rfl
        exact unasked (eq_ask_of_deed? about)
      exact ⟨session.health_afterDeed other stopped, session.onlyGoesOn_afterDeed deed stopped⟩
  | follows about different found shared same => exact ⟨rfl, .refl session⟩
  | passes now => exact ⟨rfl, .refl session⟩

/-- While an engine is not asked to recover, it stays stopped and begins no cycle. -/
theorem afterAll_of_stopped {acts : List Act} (unasked : .ask index .recover ∉ acts)
    (found : world.fleet.session? index = some session)
    (stopped : session.engine.health.isHealthy = false)
    (later : (world.afterAll acts).fleet.session? index = some next) :
    next.engine.health = session.engine.health ∧ session.OnlyGoesOn next := by
  refine afterAll_induction (motive := fun acts next => .ask index .recover ∉ acts →
    next.engine.health = session.engine.health ∧ session.OnlyGoesOn next) ?_ ?_ later unasked
  · intro same foundSame _
    obtain rfl := Option.some.inj (found.symm.trans foundSame)
    exact ⟨rfl, .refl session⟩
  · intro acts act middle next _ ih shift unasked
    rw [List.mem_append, List.mem_singleton, not_or] at unasked
    rcases ih unasked.1 with ⟨same, goesOn⟩
    have stoppedStill : middle.engine.health.isHealthy = false := by rwa [same]
    rcases shift.of_stopped (Ne.symm unasked.2) stoppedStill with ⟨sameStill, goesOnStill⟩
    exact ⟨sameStill.trans same, goesOn.trans goesOnStill⟩

/--
From when an engine stops acting until it is asked to recover, whatever happens in between, it stays
stopped and begins no cycle. It offers a command exactly when one of its sweeps comes to an entry
whose time had come as the sweep began, or when an actor goes on with a cycle that was under way
when the engine stopped, and nothing stands in the way of an action that is left of it.
-/
theorem offered_while_stopped {acts : List Act} (unasked : .ask index .recover ∉ acts)
    (found : world.fleet.session? index = some session)
    (stopped : session.engine.health.isHealthy = false) :
    ∃ later, (world.afterAll acts).fleet.session? index = some later ∧
      later.engine.health = session.engine.health ∧ session.OnlyGoesOn later ∧
      ∀ act, (world.afterAll acts).offered act index ≠ [] ↔
        ∃ deed, (world.afterAll acts).deed? act = some (index, deed) ∧
          ((∃ entry, later.Resends deed entry) ∨
            ∃ actor action, later.Resumes deed actor action) := by
  rcases exists_session?_afterAll found acts with ⟨later, laterFound⟩
  rcases afterAll_of_stopped unasked found stopped laterFound with ⟨same, goesOn⟩
  refine ⟨later, laterFound, same, goesOn, ?_⟩
  have stoppedStill : later.engine.health.isHealthy = false := by rwa [same]
  intro act
  constructor
  · intro offering
    rcases List.exists_mem_of_ne_nil _ offering with ⟨command, offered⟩
    rcases (mem_offered_iff laterFound).mp offered with ⟨deed, about, member⟩
    exact ⟨deed, about,
      (later.offers_ne_nil_iff_of_stopped stoppedStill deed).mp (List.ne_nil_of_mem member)⟩
  · rintro ⟨deed, about, cause⟩
    rcases List.exists_mem_of_ne_nil _
      ((later.offers_ne_nil_iff_of_stopped stoppedStill deed).mpr cause) with ⟨command, member⟩
    exact List.ne_nil_of_mem ((mem_offered_iff laterFound).mpr ⟨deed, about, member⟩)

/-- An actor that waits for a slow transport when the engine stops offers its next command then. -/
theorem offered_while_stopped_of_slow_transport :
    let started (host : String) : LatticeEvent :=
      ⟨⟨"prod"⟩, ⟨host⟩, 1, ⟨0, 0⟩, .hostStarted ∅ none⟩
    let manifest : Manifest := (Manifest.new ⟨"shop"⟩ "v1").withComponent
      ((Component.new "api" .component "registry/api:1").withTrait (.spreadScaler (.new 2)))
    let world : World :=
      (World.new ⟨0, ⟨0, 0⟩⟩
        [⟨.new 0 .development ⟨none, 50, []⟩ none (some .everything), none⟩]).afterAll
        [.ask 0 (.ingest (started "host-a")), .ask 0 (.ingest (started "host-b")),
          .ask 0 (.submit manifest), .ask 0 (.deploy ⟨"shop"⟩ none ⟨"prod"⟩), .carryOn 3,
          .moveActor 0 0, .ask 0 (.reportFatal "operator")]
    let acts : List Act := [.wait 50 ⟨0, 50000000⟩]
    .ask 0 .recover ∉ acts ∧
      (∃ session, world.fleet.session? 0 = some session ∧
        session.engine.health.isHealthy = false) ∧
      ((world.afterAll acts).offered (.moveActor 0 0) 0).length = 1 ∧
      ∃ later, (world.afterAll acts).fleet.session? 0 = some later ∧
        ∃ deed, (world.afterAll acts).deed? (.moveActor 0 0) = some (0, deed) ∧
          ((∃ entry, later.Resends deed entry) ∨
            ∃ actor action, later.Resumes deed actor action) := by
  intro started manifest world acts
  have unasked : .ask 0 .recover ∉ acts := by decide
  have isMember : (world.fleet.session? 0).isSome = true := by decide +kernel
  rcases Option.isSome_iff_exists.mp isMember with ⟨session, found⟩
  have stopped : session.engine.health.isHealthy = false := by
    have known : ((world.fleet.session? 0).all fun session =>
        !session.engine.health.isHealthy) = true := by decide +kernel
    simpa [found] using known
  have offered : ((world.afterAll acts).offered (.moveActor 0 0) 0).length = 1 := by
    decide +kernel
  rcases offered_while_stopped unasked found stopped with ⟨later, laterFound, _, _, offers⟩
  refine ⟨unasked, ⟨session, found, stopped⟩, offered, later, laterFound, ?_⟩
  exact (offers _).mp (List.ne_nil_of_length_pos (by rw [offered]; exact Nat.one_pos))

/-- A sweep sends a command again although the engine has stopped and was not asked to recover. -/
theorem resends_while_stopped :
    let manifest : Manifest := (Manifest.new ⟨"shop"⟩ "v1").withComponent
      ((Component.new "api" .component "registry/api:1").withTrait (.spreadScaler (.new 1)))
    let fresh : World := .new ⟨0, ⟨0, 0⟩⟩
      [⟨.new 0 .development .new none (some .everything), none⟩]
    let world : World := fresh.afterAll
      [.ask 0 (.ingest ⟨⟨"prod"⟩, ⟨"host-a"⟩, 1, ⟨0, 0⟩, .hostStarted ∅ none⟩),
        .ask 0 (.submit manifest), .ask 0 (.deploy ⟨"shop"⟩ none ⟨"prod"⟩), .carryOn 2,
        .moveActor 0 0, .wait 1100 ⟨1, 100000000⟩, .ask 0 .reapCommands,
        .ask 0 (.reportFatal "operator")]
    let acts : List Act := [.wait 100 ⟨1, 200000000⟩, .ask 0 .reapCommands]
    fresh.IsFresh ∧ .ask 0 .recover ∉ acts ∧
      ((world.fleet.session? 0).map fun session => session.engine.health) =
        some (.unhealthy "operator" ⟨1, 100000000⟩) ∧
      (((world.afterAll acts).offered (.carryOn 5) 0).map fun command =>
        (command.key, command.attempt)) = [(⟨"prod/shop-api/start/host-a"⟩, 2)] := by
  intro manifest fresh world acts
  exact ⟨isFresh_new_singleton, by decide, by decide +kernel, by decide +kernel⟩

end World

end Reconciler
