import Reconciler.Proofs.Fleet.InStep
import Reconciler.Proofs.Fleet.Offers
import Reconciler.Proofs.Placement.Removal

/-!
# Where work is started

New commands that start instances or put links come from actors that work towards the manifest.
Such an actor does not look where its application is deployed. Still the application is deployed
there as long as the actor hears of each removal: when its own engine is asked for it, once the
orders to deploy that were given before have reached the actor.
-/

namespace Reconciler

namespace Session

/-- Cycles under way with something left to start work towards the manifest. -/
def StartsByManifest (session : Session) : Prop :=
  ∀ actor ∈ session.engine.actors, ∀ cycle command answersAt,
    actor.stage = .sending cycle command answersAt → ∀ action ∈ cycle.remaining,
      action.kind.isDestructive = false → actor.intent = .converge

variable {session : Session} {actor base : Actor} {actions : List RequiredAction}
  {action : RequiredAction}

/-- Only what works towards the manifest finds something to start. -/
theorem intent_of_mem_missing (missing : session.missing actor = .ok actions)
    (member : action ∈ actions) (starts : action.kind.isDestructive = false) :
    actor.intent = .converge := by
  rw [Session.missing] at missing
  cases intent : actor.intent with
  | converge => rfl
  | teardown mode =>
      simp only [intent, Except.ok.injEq] at missing
      rw [← missing] at member
      cases starts.symm.trans (isDestructive_of_mem_evaluateTeardown member)
  | dormant =>
      simp only [intent, Except.ok.injEq] at missing
      rw [← missing] at member
      cases member

theorem Engaged.intent {total : Nat} (engaged : session.Engaged actor base total actions)
    (plans : session.StartsByManifest) (isActor : actor ∈ session.engine.actors)
    (member : action ∈ actions) (starts : action.kind.isDestructive = false) :
    base.intent = .converge := by
  cases engaged with
  | begins wakes lasting allowed missing => exact intent_of_mem_missing missing member starts
  | resumes sending answered => exact plans actor isActor _ _ _ sending action member starts

theorem StartsByManifest.afterDeed (plans : session.StartsByManifest) (deed : Deed) :
    (session.afterDeed deed).1.StartsByManifest := by
  intro actor isActor cycle command answersAt sending action member starts
  rcases session.sending_afterDeed deed isActor sending with
    ⟨former, formerMember, same⟩ | ⟨_, former, base, actions, found, engaged, _, left, _, intent⟩
  · rw [same.intent]
    exact plans former formerMember cycle command answersAt (same.stage ▸ sending) action member
      starts
  · rw [intent]
    exact engaged.intent plans (Engine.mem_of_actor? found).1 (left.subset member) starts

/-- What an actor leaves in its queue when it goes on working. -/
def leftInQueue (session : Session) (actor : Actor) : List Trigger :=
  ((session.awake? actor).getD actor).queue

theorem Engaged.queue {total : Nat} (engaged : session.Engaged actor base total actions) :
    base.queue = session.leftInQueue actor := by
  rw [leftInQueue]
  cases engaged with
  | begins wakes => rw [wakes]; rfl
  | resumes sending => rw [awake?_eq_none_of_sending sending]; rfl

/-- An actor that is in step and has heard of every removal starts work where it is asked for. -/
theorem InStep.isActive_of_offered {removed : Option AppName} {pending : Order → Prop}
    (inStep : session.InStep removed pending) (plans : session.StartsByManifest)
    (isActor : actor ∈ session.engine.actors)
    (present : session.engine.roster.find? actor.key = some actor)
    (heard : ∀ mode, .undeploy mode ∉ session.leftInQueue actor)
    (told : ∀ mode, ¬pending (actor.number, .undeploy mode)) {command : Command}
    (offered : command ∈ session.offersOfActor actor)
    (starts : command.action.kind.isDestructive = false) :
    session.backend.isActive ⟨command.lattice, command.app⟩ = true := by
  rcases engaged_of_mem_offersOfActor offered with
    ⟨lattice, app, _, base, total, actions, engaged, member⟩
  have intent := engaged.intent plans isActor member starts
  have heads : actor.heading = .converge := by
    rw [← engaged.heading, Actor.heading, intent, engaged.queue]
    by_contra leads
    rcases Intent.exists_undeploy_of_foldl_after_ne leads with ⟨mode, isLeft⟩
    exact heard mode isLeft
  rw [lattice, app]
  rcases inStep.told actor.key actor present heads with active | ⟨mode, waiting⟩
  · exact active
  · exact absurd waiting (told mode)

end Session

/-- The application whose removal an act asks for, if it asks for one. -/
def Act.removed? : Act → Option AppName
  | .ask _ request => request.removed?
  | _ => none

namespace World

variable {world : World} {index : Nat} {acts : List Act} {act : Act} {session next : Session}

/--
If an act asks for the removal of an application that a member has an actor for, it asks that
member, and no order to deploy the application is on its way to the actor.
-/
def Heeds (world : World) (index : Nat) (act : Act) : Prop :=
  ∀ member request app, act = .ask member request → request.removed? = some app →
    world.fleet.sharesBackend member index = true →
      ∀ session, world.fleet.session? index = some session →
        ∀ key actor, session.engine.roster.find? key = some actor → key.app = app →
          member = index ∧
            ∀ trigger, world.Awaits index (actor.number, trigger) → trigger.deploys = false

/-- In a run, the actors of a member get to hear of the removals of their applications in order. -/
def Orderly (world : World) (index : Nat) (acts : List Act) : Prop :=
  ∀ first act, first ++ [act] <+: acts → (world.afterAll first).Heeds index act

theorem orderly_concat_iff :
    world.Orderly index (acts ++ [act]) ↔
      world.Orderly index acts ∧ (world.afterAll acts).Heeds index act :=
  throughout_concat_iff fun world => world.Heeds index

/-- Acts that ask for no removal may follow. -/
theorem Orderly.append (orderly : world.Orderly index acts) {more : List Act}
    (unasked : ∀ act ∈ more, act.removed? = none) : world.Orderly index (acts ++ more) := by
  induction more using List.reverseRecOn with
  | nil => rwa [List.append_nil]
  | append_singleton more act ih =>
      rw [List.forall_mem_append, List.forall_mem_singleton] at unasked
      rw [← List.append_assoc, orderly_concat_iff]
      refine ⟨ih unasked.1, ?_⟩
      rintro member request app rfl removes
      cases unasked.2.symm.trans removes

theorem not_awaits_of_idle
    (idle : world.errands.all fun errand => (Chore.orders errand.chores).isEmpty) (order : Order) :
    ¬world.Awaits index order := by
  rintro ⟨errand, isErrand, _, ordered⟩
  rw [List.isEmpty_iff.mp (List.all_eq_true.mp idle errand isErrand)] at ordered
  cases ordered

/-- A member that no order waits for may be asked for a removal. -/
theorem heeds_of_idle (idle : world.errands.all fun errand => (Chore.orders errand.chores).isEmpty)
    (request : Request) : world.Heeds index (.ask index request) := by
  intro member other app isAsk removes shared session found key actor present here
  cases isAsk
  exact ⟨rfl, fun trigger waiting => absurd waiting (not_awaits_of_idle idle _)⟩

/-- A member is in step with what its actors work towards, and so is all that is under way. -/
structure InStep (world : World) (index : Nat) (session : Session) : Prop where
  inStep : session.InStep none (world.Awaits index)
  orderless : session.LoopsOrderless
  plans : session.StartsByManifest
  first : world.OrdersFirst

theorem InStep.after (inStep : world.InStep index session)
    (found : world.fleet.session? index = some session) (heeds : world.Heeds index act)
    (shift : world.Shift act index session next) : (world.after act).InStep index next := by
  have first := inStep.first.after act
  cases shift with
  | @acts deed about =>
      refine ⟨?_, inStep.orderless.afterDeed deed, inStep.plans.afterDeed deed, first⟩
      -- If a removal is asked for, the actor has nothing coming that tells it to deploy.
      have clear : session.InStep deed.removed? (world.Awaits index) := by
        refine { inStep.inStep with clear := ?_ }
        intro key actor present isRemoved trigger waiting
        rcases eq_ask_of_removed? about isRemoved with ⟨request, isAsk, removes⟩
        exact (heeds index request key.app isAsk removes (Fleet.sharesBackend_self _ _) session
          found key actor present rfl).2 trigger waiting
      refine clear.afterDeed inStep.orderless ?_ (fun order => awaits_of_after about found)
        (fun order => awaits_of_ordersLeft about found)
        (fun order => awaits_after inStep.first about found)
      rintro chore order rfl ordered
      exact awaits_of_perform about ordered
  | @follows member deed other about different otherFound shared same =>
      have still : ∀ deed, world.deed? act ≠ some (index, deed) := by
        intro deed isOwn
        cases about.symm.trans isOwn
        exact different rfl
      refine ⟨?_, inStep.orderless, inStep.plans, first⟩
      -- Whoever else works on the backend does not remove what this member has an actor for.
      have kept : ({ session with backend := (other.afterDeed deed).1.backend } : Session).InStep
          none (world.Awaits index) := by
        refine inStep.inStep.keeps (.refl _) ?_
        intro key actor present active
        rw [same] at active
        refine other.isActive_afterDeed ?_ active
        intro isRemoved
        rcases eq_ask_of_removed? about isRemoved with ⟨request, isAsk, removes⟩
        exact different (heeds member request key.app isAsk removes
          (Fleet.sharesBackend_of_not_hasOwn shared.1 shared.2) session found key actor present
          rfl).1
      exact kept.congr fun order => awaits_after_iff_of_still still
  | passes now still =>
      refine ⟨?_, inStep.orderless, inStep.plans, first⟩
      have kept : ({ session with now := now } : Session).InStep none (world.Awaits index) :=
        inStep.inStep.keeps (.refl _) fun _ _ _ active => active
      exact kept.congr fun order => awaits_after_iff_of_still still

theorem IsFresh.inStep (fresh : world.IsFresh)
    (found : world.fleet.session? index = some session) : world.InStep index session := by
  rcases fresh.exists_eq_new found with ⟨source, config, sink, assignment, partition, isNew⟩
  have nobody : ∀ actor, actor ∉ session.engine.actors := by
    rw [isNew]
    exact fun _ none => by cases none
  have unlisted : ∀ key actor, session.engine.roster.find? key ≠ some actor := by
    rw [isNew]
    exact fun _ _ none => by cases none
  have idle : ∀ loop, loop ∉ session.engine.loops := by
    rw [isNew]
    exact fun _ none => by cases none
  refine ⟨⟨⟨?_, ?_, ?_⟩, ?_, ?_, ?_, ?_⟩, ?_, ?_, ?_⟩
  · exact fun actor member => absurd member (nobody actor)
  · exact fun _ key _ actor present => absurd present (unlisted _ _)
  · exact fun key actor present => absurd present (unlisted key actor)
  · intro order waiting
    exact absurd waiting (not_awaits_of_idle (by rw [fresh.idle]; rfl) order)
  · exact fun key actor present => absurd present (unlisted key actor)
  · exact fun key actor present => absurd present (unlisted key actor)
  · exact fun key actor present => absurd present (unlisted key actor)
  · exact fun loop member => absurd member (idle loop)
  · exact fun actor member => absurd member (nobody actor)
  · intro errand isErrand
    rw [fresh.idle] at isErrand
    cases isErrand

theorem inStep_afterAll (fresh : world.IsFresh) (orderly : world.Orderly index acts)
    (found : (world.afterAll acts).fleet.session? index = some session) :
    (world.afterAll acts).InStep index session := by
  refine afterAll_induction (motive := fun acts session => world.Orderly index acts →
    (world.afterAll acts).InStep index session) ?_ ?_ found orderly
  · intro session foundFirst _
    exact fresh.inStep foundFirst
  · intro acts act former session formerFound ih shift orderly
    rw [orderly_concat_iff] at orderly
    rw [afterAll_concat]
    exact (ih orderly.1).after formerFound orderly.2 shift

/--
In every run in which the actors of a member get to hear of the removals of their applications in
order, an actor of the roster offers new commands that start instances or put links only where its
application is deployed, unless a trigger to remove the application is left in its queue or is
still on its way to it.
-/
theorem started_where_deployed (fresh : world.IsFresh) (orderly : world.Orderly index acts)
    (found : (world.afterAll acts).fleet.session? index = some session) {number : Nat}
    {actor : Actor} (foundActor : session.engine.actor? number = some actor)
    (present : session.engine.roster.find? actor.key = some actor)
    (heard : ∀ mode, .undeploy mode ∉ session.leftInQueue actor ∧
      ¬(world.afterAll acts).Awaits index (number, .undeploy mode)) :
    ∀ command ∈ (world.afterAll acts).offered (.moveActor index number) index,
      command.action.kind.isDestructive = false →
        session.backend.isActive ⟨command.lattice, command.app⟩ = true := by
  intro command offered starts
  rcases (mem_offered_iff found).mp offered with ⟨deed, about, member⟩
  cases about
  rw [Session.offers, foundActor] at member
  have inStep := inStep_afterAll fresh orderly found
  rcases Engine.mem_of_actor? foundActor with ⟨isActor, rfl⟩
  exact inStep.inStep.isActive_of_offered inStep.plans isActor present
    (fun mode => (heard mode).1) (fun mode => (heard mode).2) member starts

/-- An application is removed and deployed again, and then its actor starts an instance of it. -/
theorem started_where_deployed_of_redeployed :
    let manifest : Manifest := (Manifest.new ⟨"shop"⟩ "v1").withComponent
      ((Component.new "api" .component "registry/api:1").withTrait (.spreadScaler (.new 1)))
    let fresh : World := .new ⟨0, ⟨0, 0⟩⟩
      [⟨.new 0 .development .new none (some .everything), none⟩]
    let deployed : List Act :=
      [.ask 0 (.ingest ⟨⟨"prod"⟩, ⟨"host-a"⟩, 1, ⟨0, 0⟩, .hostStarted ∅ none⟩),
        .ask 0 (.submit manifest), .ask 0 (.deploy ⟨"shop"⟩ none ⟨"prod"⟩), .carryOn 2]
    let again : List Act :=
      [.carryOn 3, .ask 0 (.deploy ⟨"shop"⟩ none ⟨"prod"⟩), .carryOn 4]
    let acts : List Act := deployed ++ [.ask 0 (.undeploy ⟨"shop"⟩ .graceful)] ++ again
    fresh.IsFresh ∧ fresh.Orderly 0 acts ∧
      ∃ session actor, (fresh.afterAll acts).fleet.session? 0 = some session ∧
        session.engine.actor? 0 = some actor ∧
        session.engine.roster.find? actor.key = some actor ∧
        (∀ mode, .undeploy mode ∉ session.leftInQueue actor ∧
          ¬(fresh.afterAll acts).Awaits 0 (0, .undeploy mode)) ∧
        ∃ command ∈ (fresh.afterAll acts).offered (.moveActor 0 0) 0,
          command.action.kind.isDestructive = false ∧
          session.backend.isActive ⟨command.lattice, command.app⟩ = true := by
  intro manifest fresh deployed again acts
  have isFresh : fresh.IsFresh := isFresh_new_singleton
  have orderly : fresh.Orderly 0 acts := by
    have nothing : fresh.Orderly 0 [] := fun first act part => by simpa using part.length_le
    have before : fresh.Orderly 0 deployed := nothing.append (by decide)
    exact (orderly_concat_iff.mpr ⟨before, heeds_of_idle (by decide +kernel) _⟩).append (by decide)
  have known : ((fresh.afterAll acts).fleet.session? 0).any (fun session =>
      (session.engine.actor? 0).any fun actor =>
        session.engine.roster.find? actor.key == some actor &&
          (session.leftInQueue actor).isEmpty) = true := by decide +kernel
  rcases (Option.any_eq_true _ _).mp known with ⟨session, found, known⟩
  rcases (Option.any_eq_true _ _).mp known with ⟨actor, foundActor, known⟩
  rw [Bool.and_eq_true, beq_iff_eq, List.isEmpty_iff] at known
  have idle : (fresh.afterAll acts).errands.all
      (fun errand => (Chore.orders errand.chores).isEmpty) = true := by decide +kernel
  have heard : ∀ mode, .undeploy mode ∉ session.leftInQueue actor ∧
      ¬(fresh.afterAll acts).Awaits 0 (0, .undeploy mode) := by
    intro mode
    rw [known.2]
    exact ⟨List.not_mem_nil, not_awaits_of_idle idle _⟩
  have starts : ((fresh.afterAll acts).offered (.moveActor 0 0) 0).any
      (fun command => !command.action.kind.isDestructive) = true := by decide +kernel
  rcases List.any_eq_true.mp starts with ⟨command, offered, starts⟩
  rw [Bool.not_eq_true'] at starts
  exact ⟨isFresh, orderly, session, actor, found, foundActor, known.1, heard, command, offered,
    starts,
    started_where_deployed isFresh orderly found foundActor known.1 heard command offered starts⟩

/--
An engine keeps its actor for an application while the application belongs to another engine, which
removes it. Back with the first engine, the application is stored but deployed nowhere, and the
actor starts an instance of it.
-/
theorem starts_what_is_not_deployed :
    let manifest : Manifest := (Manifest.new ⟨"shop"⟩ "v1").withComponent
      ((Component.new "api" .component "registry/api:1").withTrait (.spreadScaler (.new 1)))
    let member (source : Nat) (apps : List AppName) : Member :=
      ⟨.new source .development .new (some (.ofList apps)) none, none⟩
    let fresh : World := .new ⟨0, ⟨0, 0⟩⟩ [member 0 [⟨"shop"⟩], member 1 []]
    let world : World := fresh.afterAll
      [.ask 0 (.submit manifest), .ask 0 (.deploy ⟨"shop"⟩ none ⟨"prod"⟩), .carryOn 1, .carryOn 1,
        .moveActor 0 0, .ask 0 (.revoke ⟨"shop"⟩), .ask 1 (.assign ⟨"shop"⟩),
        .ask 1 (.undeploy ⟨"shop"⟩ .force), .carryOn 4, .carryOn 4, .ask 1 (.submit manifest),
        .ask 1 (.revoke ⟨"shop"⟩), .ask 0 (.assign ⟨"shop"⟩),
        .ask 0 (.ingest ⟨⟨"prod"⟩, ⟨"host-a"⟩, 1, ⟨0, 0⟩, .hostStarted ∅ none⟩),
        .moveActor 0 0, .wait 10 ⟨0, 10000000⟩]
    fresh.IsFresh ∧ (world.errands.all fun errand => errand.chores.isEmpty) = true ∧
      ((world.fleet.session? 0).map fun session =>
        (session.backend.store.apps.contains ⟨"shop"⟩,
          session.backend.store.deployment? ⟨"shop"⟩)) = some (true, none) ∧
      ((world.offered (.moveActor 0 0) 0).map fun command => (command.key, command.attempt)) =
        [(⟨"prod/shop-api/start/host-a"⟩, 1)] := by
  intro manifest member fresh world
  refine ⟨⟨?_, rfl⟩, by decide +kernel, by decide +kernel, by decide +kernel⟩
  intro one isMember
  rcases List.mem_pair.mp isMember with rfl | rfl
  · exact ⟨_, _, _, _, _, rfl⟩
  · exact ⟨_, _, _, _, _, rfl⟩

end World

end Reconciler
