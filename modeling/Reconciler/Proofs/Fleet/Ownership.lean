import Reconciler.Proofs.Dispatch.Attempts
import Reconciler.Proofs.Fleet.Cycles
import Reconciler.Proofs.Fleet.Offers

/-!
# For which applications engines offer commands

An engine begins cycles only for applications that are its own. What it has begun it goes on with,
and it sends commands again, whether the application is still its own or not.
-/

namespace Reconciler

theorem Dispatcher.Tracks.leads {dispatcher next : Dispatcher} {offered more : List Command}
    (tracks : dispatcher.Tracks offered) (leads : dispatcher.Leads more next) :
    next.Tracks (offered ++ more) := by
  rcases leads with ⟨moves, leads⟩
  have tracked := tracks.performAll moves
  rwa [leads] at tracked

namespace Session

variable {session : Session} {deed : Deed}

theorem owns_of_mayLook {actor : Actor} (allowed : session.mayLook actor = true) :
    session.engine.owns actor.key.app = true := by
  rw [mayLook, Bool.and_eq_true] at allowed
  exact allowed.2

/-- An actor of an application that is not the engine's own begins no cycle. -/
theorem mayLook_of_not_owns {actor : Actor}
    (foreign : session.engine.owns actor.key.app = false) {awake : Actor}
    (wakes : session.awake? actor = some awake) : session.mayLook awake = false := by
  rcases takes_awake? wakes with ⟨taken, takes⟩
  rw [mayLook, takes.key, foreign, Bool.and_false]

/-- How a deed comes to offer a command for an application that is not the engine's own. -/
theorem exists_foreign_offer_iff :
    (∃ command ∈ session.offers deed, session.engine.owns command.app = false) ↔
      (∃ entry, session.Resends deed entry ∧
        session.engine.owns entry.command.app = false) ∨
      ∃ actor action, session.Resumes deed actor action ∧
        session.engine.owns actor.key.app = false := by
  constructor
  · rintro ⟨command, offered, foreign⟩
    rcases mem_offers_iff.mp offered with
      ⟨entry, resends, rfl⟩ | ⟨number, actor, rfl, found, member⟩
    · exact Or.inl ⟨entry, resends, foreign⟩
    · rw [(engaged_of_mem_offersOfActor member).2.1] at foreign
      rcases (offersOfActor_ne_nil_iff_of_barred found fun awake =>
        mayLook_of_not_owns foreign).mp (List.ne_nil_of_mem member) with ⟨action, resumes⟩
      exact Or.inr ⟨actor, action, resumes, foreign⟩
  · rintro (⟨entry, resends, foreign⟩ | ⟨actor, action, resumes, foreign⟩)
    · exact ⟨_, mem_offers_iff.mpr (Or.inl ⟨entry, resends, rfl⟩), foreign⟩
    · rcases resumes.moves with ⟨number, rfl, found⟩
      have offering := (offersOfActor_ne_nil_iff_of_barred found fun awake =>
        mayLook_of_not_owns foreign).mpr ⟨action, resumes⟩
      rcases List.exists_mem_of_ne_nil _ offering with ⟨command, member⟩
      refine ⟨command, mem_offers_iff.mpr (Or.inr ⟨number, actor, rfl, found, member⟩), ?_⟩
      rwa [(engaged_of_mem_offersOfActor member).2.1]

end Session

namespace World

variable {world : World} {index : Nat} {acts : List Act} {session : Session}

/-- An application was an engine's own at a moment of a run, the end of which counts as well. -/
def HasOwned (world : World) (index : Nat) (acts : List Act) (app : AppName) : Prop :=
  ∃ first, first <+: acts ∧ ∃ earlier, (world.afterAll first).fleet.session? index = some earlier ∧
    earlier.engine.owns app = true

theorem HasOwned.concat {app : AppName} (owned : world.HasOwned index acts app) (act : Act) :
    world.HasOwned index (acts ++ [act]) app := by
  rcases owned with ⟨first, part, earlier, found, owns⟩
  exact ⟨first, part.trans (List.prefix_append acts [act]), earlier, found, owns⟩

/-- What an engine has offered and has begun is for applications that were its own. -/
structure OnlyForOwn (world : World) (index : Nat) (acts : List Act) (session : Session) :
    Prop where
  tracks : ∃ offered, session.engine.dispatcher.Tracks offered ∧
    ∀ command ∈ offered, world.HasOwned index acts command.app
  sending : ∀ actor ∈ session.engine.actors, ∀ cycle command answersAt,
    actor.stage = .sending cycle command answersAt → world.HasOwned index acts actor.key.app

theorem OnlyForOwn.concat (own : world.OnlyForOwn index acts session) (act : Act) :
    world.OnlyForOwn index (acts ++ [act]) session := by
  rcases own.tracks with ⟨offered, tracks, wereOwned⟩
  exact ⟨⟨offered, tracks, fun command member => (wereOwned command member).concat act⟩,
    fun actor member cycle command answersAt sending =>
      (own.sending actor member cycle command answersAt sending).concat act⟩

/-- An actor at work on a cycle has an application that is or was the engine's own. -/
theorem OnlyForOwn.engaged (own : world.OnlyForOwn index acts session)
    (found : (world.afterAll acts).fleet.session? index = some session) {number : Nat}
    {actor base : Actor} (foundActor : session.engine.actor? number = some actor) {total : Nat}
    {actions : List RequiredAction} (engaged : session.Engaged actor base total actions) :
    world.HasOwned index acts base.key.app := by
  cases engaged with
  | begins wakes lasting allowed missing =>
      exact ⟨acts, List.prefix_rfl, session, found, Session.owns_of_mayLook allowed⟩
  | resumes sending answered =>
      exact own.sending actor (Engine.mem_of_actor? foundActor).1 _ _ _ sending

/-- A deed offers commands only for applications that are or were the engine's own. -/
theorem OnlyForOwn.offers (own : world.OnlyForOwn index acts session)
    (found : (world.afterAll acts).fleet.session? index = some session) {deed : Deed} :
    ∀ command ∈ session.offers deed, world.HasOwned index acts command.app := by
  intro command offered
  rcases own.tracks with ⟨before, tracks, wereOwned⟩
  rcases Session.mem_offers_iff.mp offered with
    ⟨entry, ⟨start, report, key, keys, retryAt, _, foundEntry, _, _⟩, rfl⟩ |
      ⟨number, actor, _, foundActor, member⟩
  · exact wereOwned entry.command (tracks.mem_offered foundEntry)
  · rcases Session.engaged_of_mem_offersOfActor member with
      ⟨_, app, _, base, total, actions, engaged, _⟩
    rw [app, ← engaged.same.2]
    exact own.engaged found foundActor engaged

theorem OnlyForOwn.afterDeed (own : world.OnlyForOwn index acts session)
    (found : (world.afterAll acts).fleet.session? index = some session) (deed : Deed) :
    world.OnlyForOwn index acts (session.afterDeed deed).1 := by
  refine ⟨?_, ?_⟩
  · rcases own.tracks with ⟨before, tracks, wereOwned⟩
    refine ⟨_, tracks.leads (session.leads_afterDeed deed), ?_⟩
    exact List.forall_mem_append.mpr ⟨wereOwned, own.offers found⟩
  · intro actor member cycle command answersAt sending
    rcases session.sending_afterDeed deed member sending with
      ⟨former, formerMember, same⟩ |
        ⟨_, former, base, actions, foundActor, engaged, _, _, key, _⟩
    · rw [same.key]
      exact own.sending former formerMember cycle command answersAt (same.stage ▸ sending)
    · rw [key]
      exact own.engaged found foundActor engaged

theorem onlyForOwn_afterAll (fresh : world.IsFresh) (acts : List Act)
    (found : (world.afterAll acts).fleet.session? index = some session) :
    world.OnlyForOwn index acts session := by
  refine afterAll_induction (motive := world.OnlyForOwn index) ?_ ?_ found
  · intro session foundFirst
    rcases fresh.exists_eq_new foundFirst with ⟨source, config, sink, assignment, partition, isNew⟩
    refine ⟨⟨[], ?_, fun _ none => by cases none⟩, ?_⟩
    · rw [isNew]
      exact Dispatcher.tracks_new _ _
    · intro actor none
      rw [isNew] at none
      cases none
  · intro acts act former session formerFound own shift
    have stays : world.OnlyForOwn index acts session := by
      cases shift with
      | @acts deed about => exact own.afterDeed formerFound deed
      | follows about different found shared same => exact ⟨own.tracks, own.sending⟩
      | passes now => exact ⟨own.tracks, own.sending⟩
    -- So far it was owned in the run up to here, which is the first part of the longer one.
    exact stays.concat act

/--
In every run an engine offers commands only for applications that are its own at the moment or were
so before. It offers a command for an application that is no longer its own exactly when one of its
sweeps comes to an entry for such an application whose time had come as the sweep began, or when an
actor of such an application goes on with a cycle and nothing stands in the way of an action that is
left of it.
-/
theorem offered_to_owner (fresh : world.IsFresh) (acts : List Act)
    (found : (world.afterAll acts).fleet.session? index = some session) (act : Act) :
    (∀ command ∈ (world.afterAll acts).offered act index,
      ∃ first, first <+: acts ∧ ∃ earlier,
        (world.afterAll first).fleet.session? index = some earlier ∧
          earlier.engine.owns command.app = true) ∧
    ((∃ command ∈ (world.afterAll acts).offered act index,
        session.engine.owns command.app = false) ↔
      ∃ deed, (world.afterAll acts).deed? act = some (index, deed) ∧
        ((∃ entry, session.Resends deed entry ∧
            session.engine.owns entry.command.app = false) ∨
          ∃ actor action, session.Resumes deed actor action ∧
            session.engine.owns actor.key.app = false)) := by
  refine ⟨?_, ?_, ?_⟩
  · intro command offered
    rcases (mem_offered_iff found).mp offered with ⟨deed, _, member⟩
    exact (onlyForOwn_afterAll fresh acts found).offers found command member
  · rintro ⟨command, offered, foreign⟩
    rcases (mem_offered_iff found).mp offered with ⟨deed, about, member⟩
    exact ⟨deed, about, Session.exists_foreign_offer_iff.mp ⟨command, member, foreign⟩⟩
  · rintro ⟨deed, about, cause⟩
    rcases Session.exists_foreign_offer_iff.mpr cause with ⟨command, member, foreign⟩
    exact ⟨command, (mem_offered_iff found).mpr ⟨deed, about, member⟩, foreign⟩

/-- An actor that waits for a slow transport goes on after its application was handed over. -/
theorem offered_to_owner_of_slow_transport :
    let started (host : String) : LatticeEvent :=
      ⟨⟨"prod"⟩, ⟨host⟩, 1, ⟨0, 0⟩, .hostStarted ∅ none⟩
    let manifest : Manifest := (Manifest.new ⟨"shop"⟩ "v1").withComponent
      ((Component.new "api" .component "registry/api:1").withTrait (.spreadScaler (.new 2)))
    let fresh : World := .new ⟨0, ⟨0, 0⟩⟩
      [⟨.new 0 .development ⟨none, 50, []⟩ (some (.ofList [⟨"shop"⟩])) none, none⟩]
    let acts : List Act :=
      [.ask 0 (.ingest (started "host-a")), .ask 0 (.ingest (started "host-b")),
        .ask 0 (.submit manifest), .ask 0 (.deploy ⟨"shop"⟩ none ⟨"prod"⟩), .carryOn 3,
        .moveActor 0 0, .ask 0 (.revoke ⟨"shop"⟩), .wait 50 ⟨0, 50000000⟩]
    fresh.IsFresh ∧ ∃ session, (fresh.afterAll acts).fleet.session? 0 = some session ∧
      ∃ deed, (fresh.afterAll acts).deed? (.moveActor 0 0) = some (0, deed) ∧
        ((∃ entry, session.Resends deed entry ∧
            session.engine.owns entry.command.app = false) ∨
          ∃ actor action, session.Resumes deed actor action ∧
            session.engine.owns actor.key.app = false) := by
  intro started manifest fresh acts
  have isFresh : fresh.IsFresh := isFresh_new_singleton
  have isMember : ((fresh.afterAll acts).fleet.session? 0).isSome = true := by decide +kernel
  rcases Option.isSome_iff_exists.mp isMember with ⟨session, found⟩
  have foreign : ((fresh.afterAll acts).offered (.moveActor 0 0) 0).any (fun command =>
      ((fresh.afterAll acts).fleet.session? 0).all fun session =>
        !session.engine.owns command.app) = true := by decide +kernel
  rcases List.any_eq_true.mp foreign with ⟨command, offered, others⟩
  rw [found, Option.all_some, Bool.not_eq_true'] at others
  exact ⟨isFresh, session, found,
    (offered_to_owner isFresh acts found (.moveActor 0 0)).2.mp ⟨command, offered, others⟩⟩

/--
An application is handed over, and its new engine begins a cycle for it; the old one, which has no
actor for it any more, sends a command for it again.
-/
theorem resends_after_handing_over :
    let manifest : Manifest := (Manifest.new ⟨"shop"⟩ "v1").withComponent
      ((Component.new "api" .component "registry/api:1").withTrait (.spreadScaler (.new 1)))
    let member (source : Nat) (apps : List AppName) : Member :=
      ⟨.new source .development .new (some (.ofList apps)) none, none⟩
    let fresh : World := .new ⟨0, ⟨0, 0⟩⟩ [member 0 [⟨"shop"⟩], member 1 []]
    let world : World := fresh.afterAll
      [.ask 0 (.ingest ⟨⟨"prod"⟩, ⟨"host-a"⟩, 1, ⟨0, 0⟩, .hostStarted ∅ none⟩),
        .ask 0 (.submit manifest), .ask 0 (.deploy ⟨"shop"⟩ none ⟨"prod"⟩), .carryOn 2,
        .moveActor 0 0, .wait 1100 ⟨1, 100000000⟩, .ask 0 .reapCommands,
        .ask 0 (.revoke ⟨"shop"⟩), .ask 0 .rebalance, .carryOn 5, .carryOn 5, .carryOn 5,
        .moveActor 0 0, .carryOn 5, .carryOn 5, .ask 1 (.assign ⟨"shop"⟩), .ask 1 .rebalance,
        .wait 100 ⟨1, 200000000⟩, .ask 0 .reapCommands]
    let told (commands : List Command) : List (IdempotencyKey × UInt32) :=
      commands.map fun command => (command.key, command.attempt)
    let held (index : Nat) : Option (Bool × Nat) :=
      (world.fleet.engine? index).map fun engine => (engine.owns ⟨"shop"⟩, engine.actors.length)
    fresh.IsFresh ∧ held 0 = some (false, 0) ∧ held 1 = some (true, 1) ∧
      told (world.offered (.carryOn 8) 0) = [(⟨"prod/shop-api/start/host-a"⟩, 2)] ∧
      told (world.offered (.moveActor 1 0) 1) = [(⟨"prod/shop-api/start/host-a"⟩, 1)] := by
  intro manifest member fresh world told held
  refine ⟨⟨?_, rfl⟩, ?_, ?_, ?_, ?_⟩
  · intro one isMember
    rcases List.mem_pair.mp isMember with rfl | rfl
    · exact ⟨_, _, _, _, _, rfl⟩
    · exact ⟨_, _, _, _, _, rfl⟩
  · decide +kernel
  · decide +kernel
  · decide +kernel
  · decide +kernel

end World

end Reconciler
