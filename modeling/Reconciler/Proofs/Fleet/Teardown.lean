import Reconciler.Proofs.Fleet.Cycles
import Reconciler.Proofs.Fleet.Deployments
import Reconciler.Proofs.Placement.Removal

/-!
# When a graceful teardown deletes an application

The last cycle of a graceful teardown finds nothing to remove, sends nothing, and deletes the
application in the same move. So what it has looked at still holds when it deletes. Cycles that
wait for the transport have found something to remove, and delete nothing.
-/

namespace Reconciler

namespace Session

/-- An actor completes a graceful teardown in its next move, and the application is still there. -/
structure CompletesTeardown (session : Session) (actor : Actor) : Prop where
  looks : ∃ awake, session.awake? actor = some awake ∧ awake.isEnding = false ∧
    session.mayLook awake = true ∧ awake.intent = .teardown .graceful
  clear : (session.backend.snapshot actor.key.lattice).isClearOf actor.key.app = true
  idle : session.engine.dispatcher.inFlightFor actor.key.lattice actor.key.app = 0
  removing : ∃ record, session.backend.deployment? actor.key.app = .ok (some record) ∧
    record.phase = .undeploying ∧ record.lattice = actor.key.lattice
  deletable : ∃ result, session.backend.delete actor.key.app = .ok result

/-- Cycles that are under way have found something to be missing. -/
def IsBusy (session : Session) : Prop :=
  ∀ actor ∈ session.engine.actors, ∀ cycle command answersAt,
    actor.stage = .sending cycle command answersAt → 0 < cycle.total

variable {session next : Session} {actor : Actor}

theorem missing_of_teardown {mode : UndeployMode} (tearing : actor.intent = .teardown mode) :
    session.missing actor =
      .ok (evaluateTeardown actor.key.app (session.backend.snapshot actor.key.lattice)) := by
  rw [missing, tearing]

theorem IsBusy.afterDeed (busy : session.IsBusy) (deed : Deed) :
    (session.afterDeed deed).1.IsBusy := by
  intro actor member cycle command answersAt sending
  rcases session.sending_afterDeed deed member sending with
    ⟨former, formerMember, same⟩ |
      ⟨_, former, base, actions, found, engaged, something, _, _, _⟩
  · exact busy former formerMember cycle command answersAt (same.stage ▸ sending)
  · generalize whole : cycle.total = total at engaged
    cases engaged with
    | begins wakes lasting allowed missing => exact List.length_pos_iff.mpr something
    | resumes formerSending answered =>
        exact busy former (Engine.mem_of_actor? found).1 _ _ _ formerSending

/-- Nothing but the application is gone from the store. -/
theorem contains_of_delete {backend deleted : Backend} {app other : AppName} {existed : Bool}
    (erased : backend.delete app = .ok (deleted, existed)) :
    deleted.store.apps.contains other = (backend.store.apps.contains other && other != app) := by
  rcases Backend.change_eq_ok erased with ⟨store, answered, rfl⟩
  have same := congrArg Prod.fst (Except.ok.inj answered)
  simp only [Store.delete] at same
  rw [← same, SortedMap.contains_eq_isSome, SortedMap.find?_erase, SortedMap.contains_eq_isSome]
  by_cases here : other = app
  · simp [here]
  · simp [here]

/-- If an application is gone after a move, the actor has completed its teardown. -/
theorem Conduct.completesTeardown {offered : List Command}
    (conduct : session.Conduct actor offered next)
    (busy : ∀ cycle command answersAt, actor.stage = .sending cycle command answersAt →
      0 < cycle.total)
    {app : AppName} (stored : session.backend.store.apps.contains app = true)
    (gone : next.backend.store.apps.contains app = false) :
    app = actor.key.app ∧ session.CompletesTeardown actor := by
  have kept : ∀ {later : Session}, later.backend = session.backend →
      later.backend.store.apps.contains app ≠ false := by
    intro later same
    simp [same, stored]
  cases conduct with
  | declines wakes lasting dispatches status => exact absurd gone (kept dispatches.backend)
  | settles engaged dispatches tires status => exact absurd gone (kept dispatches.backend)
  | sends engaged dispatches => exact absurd gone (kept dispatches.backend)
  | @erases base actions _ middle last backend engaged before untouched erases after status =>
      -- The cycle had nothing to do, so it was not waiting for the transport: it has just begun.
      generalize whole : 0 = total at engaged
      cases engaged with
      | resumes sending answered =>
          exact absurd whole (Nat.ne_of_lt (busy _ _ _ sending))
      | @begins awake _ wakes lasting allowed missing =>
          have nothing := List.eq_nil_of_length_eq_zero whole.symm
          obtain rfl := untouched (by rw [wakes, Option.isSome_some])
          rcases takes_awake? wakes with ⟨taken, takes⟩
          have key : awake.dispatching.key = actor.key := takes.key
          rcases erases.deleted with ⟨existed, deleted⟩
          have idle := erases.idle
          have removing := erases.removing
          have tearing : awake.intent = .teardown .graceful := erases.tearing
          rw [key] at deleted idle removing
          have clear : (middle.backend.snapshot actor.key.lattice).isClearOf actor.key.app =
              true := by
            rw [missing_of_teardown tearing, nothing, takes.key] at missing
            exact evaluateTeardown_eq_nil_iff.mp (Except.ok.inj missing)
          refine ⟨?_, ⟨awake, wakes, lasting, allowed, tearing⟩, clear, idle, removing, _, deleted⟩
          have left : backend.store.apps.contains app = false := gone
          rw [contains_of_delete deleted, stored] at left
          simpa using left
  | _ => exact absurd gone (kept rfl)

theorem backend_finishTeardown {record : DeploymentRecord} {backend : Backend} {existed : Bool}
    (recorded : session.backend.deployment? actor.key.app = .ok (some record))
    (removing : record.phase = .undeploying ∧ record.lattice = actor.key.lattice)
    (deleted : session.backend.delete actor.key.app = .ok (backend, existed)) :
    (session.finishTeardown actor .graceful).1.backend = backend := by
  simp only [finishTeardown, deleteRemoved, recorded, deleted, if_pos removing, bind, Except.bind,
    pure, Except.pure]
  rfl

/-- A cycle that has found nothing to remove, of which nothing is under way, deletes. -/
theorem backend_finishCycle {record : DeploymentRecord} {backend : Backend} {existed : Bool}
    (tearing : actor.intent = .teardown .graceful)
    (idle : session.engine.dispatcher.inFlightFor actor.key.lattice actor.key.app = 0)
    (recorded : session.backend.deployment? actor.key.app = .ok (some record))
    (removing : record.phase = .undeploying ∧ record.lattice = actor.key.lattice)
    (deleted : session.backend.delete actor.key.app = .ok (backend, existed)) :
    (session.finishCycle actor ⟨0, 0, []⟩).1.backend = backend := by
  simp only [finishCycle, tearing]
  split
  · exact backend_finishTeardown recorded removing deleted
  · rename_i incomplete
    exact absurd ⟨trivial, idle⟩ incomplete

/-- The move in which an actor completes a graceful teardown deletes the application. -/
theorem CompletesTeardown.deletes (completes : session.CompletesTeardown actor) :
    (session.moveActor actor).backend.store.apps.contains actor.key.app = false := by
  rcases completes with ⟨⟨awake, wakes, lasting, allowed, tearing⟩, clear, idle,
    ⟨record, recorded, removing⟩, ⟨backend, existed⟩, deleted⟩
  rcases takes_awake? wakes with ⟨taken, takes⟩
  have nothing : session.missing awake = .ok [] := by
    rw [missing_of_teardown tearing, takes.key, evaluateTeardown_eq_nil_iff.mpr clear]
  have moves := session.move_cases actor
  generalize session.moveActor actor = last at moves
  cases moves with
  | @begins other actions next otherWakes otherLasting otherAllowed missing leads =>
      obtain rfl := Option.some.inj (wakes.symm.trans otherWakes)
      obtain rfl := Except.ok.inj (nothing.symm.trans missing)
      rw [← takes.key] at idle recorded removing deleted
      have erased : next.1.backend = backend := by
        rw [← leads]
        have finished : (session.finishCycle awake.dispatching ⟨0, 0, []⟩).1.backend = backend :=
          backend_finishCycle tearing idle recorded removing deleted
        exact finished
      change next.1.backend.store.apps.contains actor.key.app = false
      rw [erased, contains_of_delete deleted, takes.key]
      simp
  | waits asleep => cases wakes.symm.trans asleep
  | absorbs asleep => cases wakes.symm.trans asleep
  | ends otherWakes ending =>
      obtain rfl := Option.some.inj (wakes.symm.trans otherWakes)
      cases lasting.symm.trans ending
  | declines otherWakes _ barred =>
      obtain rfl := Option.some.inj (wakes.symm.trans otherWakes)
      cases allowed.symm.trans barred
  | fails otherWakes _ _ unknown =>
      obtain rfl := Option.some.inj (wakes.symm.trans otherWakes)
      cases nothing.symm.trans unknown
  | resumes sending => cases wakes.symm.trans (awake?_eq_none_of_sending sending)

end Session

namespace World

variable {world : World} {acts : List Act} {index : Nat} {session : Session}

theorem isBusy_afterAll (fresh : world.IsFresh) (acts : List Act)
    (found : (world.afterAll acts).fleet.session? index = some session) : session.IsBusy := by
  refine afterAll_induction (motive := fun _ session => session.IsBusy) ?_ ?_ found
  · intro session foundFirst actor none
    rcases fresh.exists_eq_new foundFirst with ⟨source, config, sink, assignment, partition, isNew⟩
    rw [isNew] at none
    cases none
  · intro acts act former session _ busy shift
    cases shift with
    | @acts deed about => exact busy.afterDeed deed
    | follows about different found shared same => exact busy
    | passes now => exact busy

/--
In every run, a move of an actor takes an application out of the store exactly if it is the actor's
own, the actor looks at it for a graceful teardown, nothing of it is left in the lattice, none of
its commands is under way, and its record says that it is being removed from that lattice. So an
application that is deployed again during a teardown stays in the store, and deployed, until
somebody asks for its removal once more.
-/
theorem deleted_by_teardown (fresh : world.IsFresh) (acts : List Act)
    (found : (world.afterAll acts).fleet.session? index = some session) :
    (∀ number actor, session.engine.actor? number = some actor → ∀ app,
      session.backend.store.apps.contains app = true →
        ((session.moveActor actor).backend.store.apps.contains app = false ↔
          app = actor.key.app ∧ session.CompletesTeardown actor)) ∧
      ∀ key, session.backend.isActive key = true → ∀ more,
        (world.afterAll acts).Unasked index key.app more → ∀ later,
          (world.afterAll (acts ++ more)).fleet.session? index = some later →
            later.backend.isActive key = true := by
  refine ⟨?_, ?_⟩
  · intro number actor foundActor app stored
    constructor
    · intro gone
      refine (session.conduct_moveActor actor).completesTeardown ?_ stored gone
      exact isBusy_afterAll fresh acts found actor (Engine.mem_of_actor? foundActor).1
    · rintro ⟨rfl, completes⟩
      exact completes.deletes
  · intro key active more unasked later laterFound
    rw [afterAll, List.foldl_append] at laterFound
    exact isActive_afterAll unasked found active laterFound

/--
An actor deletes its application after the instance was stopped; had the application been deployed
again before that move, it would have stayed.
-/
theorem deleted_by_teardown_of_stopped :
    let happens (sequence : UInt64) (kind : LatticeEventKind) : Act :=
      .ask 0 (.ingest ⟨⟨"prod"⟩, ⟨"host-a"⟩, sequence, ⟨0, 0⟩, kind⟩)
    let manifest : Manifest := (Manifest.new ⟨"shop"⟩ "v1").withComponent
      ((Component.new "api" .component "registry/api:1").withTrait (.spreadScaler (.new 1)))
    let key : ActorKey := ⟨⟨"prod"⟩, ⟨"shop"⟩⟩
    let fresh : World := .new ⟨0, ⟨0, 0⟩⟩
      [⟨.new 0 .development .new none (some .everything), none⟩]
    let removing : List Act :=
      [happens 1 (.hostStarted ∅ none),
        happens 2 (.instanceStarted ⟨"shop-api"⟩ .component "registry/api:1" ⟨"i1"⟩
          (.ofList [("lattice.app", "shop")])),
        .ask 0 (.submit manifest), .ask 0 (.deploy key.app none key.lattice), .carryOn 3,
        .moveActor 0 0, .ask 0 (.undeploy key.app .graceful), .carryOn 4, .moveActor 0 0]
    let sent : List Command :=
      ((fresh.afterAll removing).fleet.engine? 0).elim [] fun engine => engine.sink.taken
    let acts : List Act :=
      removing ++ (sent.map fun command => .ask 0 (.acknowledge (.success command))) ++
        [happens 3 (.instanceStopped ⟨"shop-api"⟩ ⟨"i1"⟩), .moveActor 0 0, .wait 10 ⟨0, 10000000⟩]
    let again : List Act := acts ++ [.ask 0 (.deploy key.app none key.lattice)]
    fresh.IsFresh ∧
      (∃ session actor, (fresh.afterAll acts).fleet.session? 0 = some session ∧
        session.engine.actor? 0 = some actor ∧
        session.backend.store.apps.contains key.app = true ∧
        key.app = actor.key.app ∧ session.CompletesTeardown actor) ∧
      ∃ session later, (fresh.afterAll again).fleet.session? 0 = some session ∧
        session.backend.isActive key = true ∧
        (fresh.afterAll (again ++ [.moveActor 0 0])).fleet.session? 0 = some later ∧
        later.backend.isActive key = true := by
  intro happens manifest key fresh removing sent acts again
  have isFresh : fresh.IsFresh := isFresh_new_singleton
  refine ⟨isFresh, ?_, ?_⟩
  · have deleted : ((fresh.afterAll acts).fleet.session? 0).any (fun session =>
        (session.engine.actor? 0).any fun actor =>
          session.backend.store.apps.contains key.app &&
            !(session.moveActor actor).backend.store.apps.contains key.app) = true := by
      decide +kernel
    rcases (Option.any_eq_true _ _).mp deleted with ⟨session, found, deleted⟩
    rcases (Option.any_eq_true _ _).mp deleted with ⟨actor, foundActor, deleted⟩
    rw [Bool.and_eq_true, Bool.not_eq_true'] at deleted
    exact ⟨session, actor, found, foundActor, deleted.1,
      ((deleted_by_teardown isFresh acts found).1 0 actor foundActor key.app deleted.1).mp
        deleted.2⟩
  · have redeployed : ((fresh.afterAll again).fleet.session? 0).any (fun session =>
        session.backend.isActive key) = true := by decide +kernel
    have stays : ((fresh.afterAll (again ++ [.moveActor 0 0])).fleet.session? 0).isSome = true := by
      decide +kernel
    rcases (Option.any_eq_true _ _).mp redeployed with ⟨session, found, active⟩
    rcases Option.isSome_iff_exists.mp stays with ⟨later, laterFound⟩
    have unasked : (fresh.afterAll again).Unasked 0 key.app [.moveActor 0 0] := by
      intro member request asked
      cases List.mem_singleton.mp asked
    exact ⟨session, later, found, active, laterFound,
      (deleted_by_teardown isFresh again found).2 key active _ unasked later laterFound⟩

end World

end Reconciler
