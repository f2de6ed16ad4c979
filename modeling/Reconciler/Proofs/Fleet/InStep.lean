import Reconciler.Proofs.Fleet.Bearings
import Reconciler.Proofs.Fleet.Loops

/-!
# Sessions whose actors keep step with deployments

An actor of the roster that heads for the manifest has an application that is deployed, or an order
to remove it is on its way to the actor; an order to deploy an application is on its way only as
long as the application is deployed. All that an engine does keeps this so, as long as nobody asks
for the removal of an application while an order to deploy it is on its way.
-/

namespace Reconciler

namespace Session

/--
The actors of the roster are in step with the deployments, going by the orders on their way to
them. If an application is being removed, no order to deploy it is on its way.
-/
structure InStep (session : Session) (removed : Option AppName) (pending : Order → Prop) :
    Prop where
  numbered : session.engine.Numbered
  known : ∀ order, pending order → order.1 < session.engine.actorsStarted
  promised : ∀ key actor, session.engine.roster.find? key = some actor →
    ∀ trigger, trigger.deploys = true → pending (actor.number, trigger) →
      session.backend.isActive key = true
  told : ∀ key actor, session.engine.roster.find? key = some actor →
    actor.heading = .converge →
      session.backend.isActive key = true ∨ ∃ mode, pending (actor.number, .undeploy mode)
  clear : ∀ key actor, session.engine.roster.find? key = some actor → removed = some key.app →
    ∀ trigger, pending (actor.number, trigger) → trigger.deploys = false

namespace InStep

variable {session next : Session} {removed : Option AppName} {pending others : Order → Prop}

theorem congr (inStep : session.InStep removed pending)
    (same : ∀ order, others order ↔ pending order) : session.InStep removed others := by
  have equal : others = pending := funext fun order => propext (same order)
  rwa [equal]

/-- Nothing is asked of a session in step unless an application is being removed. -/
theorem relax (inStep : session.InStep removed pending) : session.InStep none pending :=
  { inStep with clear := fun _ _ _ isNone => by cases isNone }

/-- A session stays in step if it keeps its actors and the deployments of their applications. -/
theorem keeps (inStep : session.InStep removed pending)
    (keeps : session.engine.Keeps next.engine)
    (retains : ∀ key actor, session.engine.roster.find? key = some actor →
      session.backend.isActive key = true → next.backend.isActive key = true) :
    next.InStep removed pending := by
  refine ⟨inStep.numbered.of_sameNumbers keeps.sameNumbers, ?_, ?_, ?_, ?_⟩
  · intro order waiting
    rw [keeps.started]
    exact inStep.known order waiting
  · intro key actor present trigger deploys waiting
    rcases keeps.roster key actor present with ⟨former, found, follows⟩
    rw [follows.number] at waiting
    exact retains key former found (inStep.promised key former found trigger deploys waiting)
  · intro key actor present heads
    rcases keeps.roster key actor present with ⟨former, found, follows⟩
    rw [follows.number]
    exact (inStep.told key former found (follows.heading heads)).imp (retains key former found) id
  · intro key actor present isRemoved trigger waiting
    rcases keeps.roster key actor present with ⟨former, found, follows⟩
    rw [follows.number] at waiting
    exact inStep.clear key former found isRemoved trigger waiting

theorem keepsBackend (inStep : session.InStep removed pending)
    (keeps : session.engine.Keeps next.engine) (same : next.backend = session.backend) :
    next.InStep removed pending :=
  inStep.keeps keeps fun _ _ _ active => by rwa [same]

/-- A new actor is in step: there is no order for it yet, and it goes by the deployment. -/
theorem hires (inStep : session.InStep removed pending) {key : ActorKey}
    (absent : session.engine.roster.find? key = none) {intent : Intent}
    (active : intent = .converge → session.backend.isActive key = true) :
    ({ session with engine := (session.engine.ensureActor key intent).1 } : Session).InStep removed
      pending := by
  have numbered := inStep.numbered.ensureActor absent intent
  have isNew : ∀ {other actor},
      (session.engine.ensureActor key intent).1.roster.find? other = some actor →
      (other = key ∧ actor = .new session.engine.actorsStarted key intent) ∨
        session.engine.roster.find? other = some actor := by
    intro other actor present
    rw [Engine.ensureActor, absent, SortedMap.find?_insert] at present
    split at present
    · rename_i isKey
      exact Or.inl ⟨isKey, (Option.some.inj present).symm⟩
    · exact Or.inr present
  have unknown : ∀ trigger, ¬pending (session.engine.actorsStarted, trigger) :=
    fun trigger waiting => Nat.lt_irrefl _ (inStep.known _ waiting)
  refine ⟨numbered, ?_, ?_, ?_, ?_⟩
  · intro order waiting
    rw [Engine.ensureActor, absent]
    exact Nat.lt_succ_of_lt (inStep.known order waiting)
  · intro other actor present trigger deploys waiting
    rcases isNew present with ⟨rfl, rfl⟩ | former
    · exact absurd waiting (unknown trigger)
    · exact inStep.promised other actor former trigger deploys waiting
  · intro other actor present heads
    rcases isNew present with ⟨rfl, rfl⟩ | former
    · exact Or.inl (active heads)
    · exact inStep.told other actor former heads
  · intro other actor present isRemoved trigger waiting
    rcases isNew present with ⟨rfl, rfl⟩ | former
    · exact absurd waiting (unknown trigger)
    · exact inStep.clear other actor former isRemoved trigger waiting

/-- To have the actor of an application told that is deployed keeps a session in step. -/
theorem orders (inStep : session.InStep none pending) {key : ActorKey} {actor : Actor}
    (present : session.engine.roster.find? key = some actor)
    (active : session.backend.isActive key = true) (trigger : Trigger) :
    session.InStep none fun order => pending order ∨ order ∈ [(actor.number, trigger)] := by
  refine { inStep with known := ?_, promised := ?_, told := ?_, clear := ?_ }
  · rintro order (waiting | isNew)
    · exact inStep.known order waiting
    · rw [List.mem_singleton.mp isNew]
      exact inStep.numbered.lt_of_find? present
  · rintro other another found cause deploys (waiting | isNew)
    · exact inStep.promised other another found cause deploys waiting
    · have same := congrArg Prod.fst (List.mem_singleton.mp isNew)
      rwa [inStep.numbered.unique other key another actor found present same]
  · intro other another found heads
    rcases inStep.told other another found heads with isActive | ⟨mode, waiting⟩
    · exact Or.inl isActive
    · exact Or.inr ⟨mode, Or.inl waiting⟩
  · intro other another found isNone
    cases isNone

/-- A deployment may end if the actor there is to be told of it. -/
theorem removes {app : AppName} (inStep : session.InStep (some app) pending)
    {record : DeploymentRecord} (recorded : session.backend.store.deployment? app = some record)
    {actor : Actor} (present : session.engine.roster.find? ⟨record.lattice, app⟩ = some actor)
    (mode : UndeployMode) {backend : Backend} (retains : session.backend.RetainsBut app backend) :
    ({ session with backend := backend } : Session).InStep (some app) fun order =>
      pending order ∨ order ∈ [(actor.number, .undeploy mode)] := by
  refine ⟨inStep.numbered, ?_, ?_, ?_, ?_⟩
  · rintro order (waiting | isNew)
    · exact inStep.known order waiting
    · rw [List.mem_singleton.mp isNew]
      exact inStep.numbered.lt_of_find? present
  · rintro key another found trigger deploys (waiting | isNew)
    · by_cases here : key.app = app
      · cases deploys.symm.trans (inStep.clear key another found (by rw [here]) trigger waiting)
      · exact retains key here (inStep.promised key another found trigger deploys waiting)
    · obtain rfl : trigger = .undeploy mode := congrArg Prod.snd (List.mem_singleton.mp isNew)
      cases deploys
  · intro key another found heads
    by_cases here : key.app = app
    · by_cases there : key.lattice = record.lattice
      · have same : key = ⟨record.lattice, app⟩ := by rw [← there, ← here]
        rw [same, present] at found
        obtain rfl := Option.some.inj found
        exact Or.inr ⟨mode, Or.inr (List.mem_singleton_self _)⟩
      · rcases inStep.told key another found heads with active | ⟨mode, waiting⟩
        · rcases Backend.isActive_iff.mp active with ⟨other, otherRecorded, _, lattice⟩
          rw [here, recorded] at otherRecorded
          obtain rfl := Option.some.inj otherRecorded
          exact absurd lattice.symm there
        · exact Or.inr ⟨mode, Or.inl waiting⟩
    · rcases inStep.told key another found heads with active | ⟨mode, waiting⟩
      · exact Or.inl (retains key here active)
      · exact Or.inr ⟨mode, Or.inl waiting⟩
  · rintro key another found isRemoved trigger (waiting | isNew)
    · exact inStep.clear key another found isRemoved trigger waiting
    · obtain rfl : trigger = .undeploy mode := congrArg Prod.snd (List.mem_singleton.mp isNew)
      rfl

/-- An actor that is taken off the roster needs not keep step any more. -/
theorem takeOff (inStep : session.InStep removed pending) (key : ActorKey) :
    (session.takeOff key).1.InStep removed pending := by
  have sameBackend : (session.takeOff key).1.backend = session.backend := by
    rcases session.exists_takeOff_eq key with ⟨roster, leaving, same⟩
    rw [same]
  have still : ∀ {other actor}, (session.takeOff key).1.engine.roster.find? other = some actor →
      session.engine.roster.find? other = some actor := by
    intro other actor present
    rw [find?_takeOff] at present
    split at present
    · cases present
    · exact present
  refine ⟨numbered_takeOff inStep.numbered key, ?_, ?_, ?_, ?_⟩
  · rw [actorsStarted_takeOff]
    exact inStep.known
  · rw [sameBackend]
    exact fun other actor present => inStep.promised other actor (still present)
  · rw [sameBackend]
    exact fun other actor present => inStep.told other actor (still present)
  · exact fun other actor present => inStep.clear other actor (still present)

/-- A trigger that orders nothing may be put into a queue. -/
theorem deliver_unordered (inStep : session.InStep removed pending) {number : Nat}
    {trigger : Trigger} (unordered : trigger.isOrder = false) (isWaiting : Bool) :
    (session.deliver number trigger isWaiting).1.InStep removed pending := by
  have update : ∀ update : Actor → Actor, (∀ former : Actor, former.Follows (update former)) →
      ({ session with engine := session.engine.updateActor number update } : Session).InStep
        removed pending := by
    intro update follows
    refine inStep.keepsBackend (Engine.keeps_updateActor (fun _ former _ _ => follows former) ?_)
      rfl
    intro former same
    rw [(follows former).number, same]
  rw [Session.deliver]
  split
  · exact inStep
  · split
    · refine update _ fun former => ?_
      have pushed := Actor.follows_push unordered former
      exact ⟨pushed.number, pushed.heading⟩
    · split
      · exact update _ (Actor.follows_push unordered)
      · exact update _ fun former => ⟨rfl, id⟩

end InStep

variable {session next : Session} {deed : Deed} {doing : Option Chore} {pending : Order → Prop}
  {offered : List Command} {orders : List Order}

/-- A service keeps a session in step, unless it delivers an order. -/
theorem Service.inStep (service : Service deed doing session offered orders next)
    (inStep : session.InStep deed.removed? pending)
    (unordered : ∀ chore, doing = some chore → chore.order? = none) :
    next.InStep deed.removed? fun order => pending order ∨ order ∈ orders := by
  have none : ∀ {removed : Option AppName} {next : Session}, next.InStep removed pending →
      next.InStep removed fun order => pending order ∨ order ∈ ([] : List Order) :=
    fun inStep => inStep.congr fun order => by simp
  cases service with
  | dispatches dispatches =>
      exact none (inStep.keepsBackend dispatches.crew.keeps dispatches.backend)
  | recovers => exact none (inStep.keepsBackend ⟨(Engine.Keeps.refl _).roster,
      (Engine.Keeps.refl _).leaving, rfl⟩ rfl)
  | arranges => exact none (inStep.keepsBackend ⟨(Engine.Keeps.refl _).roster,
      (Engine.Keeps.refl _).leaving, rfl⟩ rfl)
  | stores retains =>
      exact none (inStep.keeps (.refl _) fun key _ _ active => retains key active)
  | nudges test background =>
      exact none (inStep.keepsBackend (Engine.keeps_nudgeAll background _) rfl)
  | hires absent active => exact none (inStep.hires absent active)
  | orders present active trigger keeps =>
      rw [keeps] at inStep ⊢
      exact inStep.orders present active trigger
  | removes asked recorded present mode retains =>
      rw [asked] at inStep ⊢
      exact inStep.removes recorded present mode retains
  | @delivers number trigger isWaiting does =>
      have plain : trigger.isOrder = false := by
        have known := unordered _ does
        simpa [Chore.order?] using known
      have left : Chore.orders (session.deliver number trigger isWaiting).2 = [] :=
        session.ordersLeft_perform (unordered _ does)
      rw [left]
      exact none (inStep.deliver_unordered plain isWaiting)
  | takesOff key => exact none (inStep.takeOff key)

theorem Serves.inStep (serves : session.Serves deed doing offered orders next)
    (inStep : session.InStep deed.removed? pending)
    (unordered : ∀ chore, doing = some chore → chore.order? = none) :
    next.InStep deed.removed? fun order => pending order ∨ order ∈ orders := by
  induction serves generalizing pending with
  | refl _ => exact inStep.congr fun order => by simp
  | head service _ ih =>
      refine (ih (service.inStep inStep unordered)).congr fun order => ?_
      rw [List.mem_append, or_assoc]

theorem Engaged.heading {actor base : Actor} {total : Nat} {actions : List RequiredAction}
    (engaged : session.Engaged actor base total actions) : base.heading = actor.heading := by
  cases engaged with
  | begins wakes =>
      rcases takes_awake? wakes with ⟨taken, takes⟩
      exact takes.heading
  | resumes => rfl

/-- An actor that has completed a teardown heads for the manifest only if it did so before. -/
theorem heading_of_tires {base : Actor} {intent : Intent} (tires : Tires base.intent intent)
    (heads : base.queue.foldl Intent.after intent = .converge) : base.heading = .converge := by
  rcases tires with rfl | ⟨rfl, mode, tearing⟩
  · exact heads
  · exact Intent.foldl_after_eq_converge (fun same => by cases same) heads _

theorem keeps_putActor {number : Nat} {actor moved : Actor}
    (numbered : session.engine.Numbered) (found : session.engine.actor? number = some actor)
    (crew : session.engine.SameCrew next.engine) (follows : actor.Follows moved) :
    session.engine.Keeps (next.putActor moved).engine := by
  have same : moved.number = number := follows.number.trans (Engine.mem_of_actor? found).2
  have keeps : session.engine.Keeps (session.engine.updateActor moved.number fun _ => moved) := by
    refine Engine.keeps_updateActor ?_ fun _ _ => rfl
    intro key former present isMoved
    rwa [numbered.eq_of_actor? found present (isMoved.trans same)]
  have alike : (session.engine.updateActor moved.number fun _ => moved).SameCrew
      (next.putActor moved).engine := by
    constructor <;>
      simp only [putActor, Engine.updateActor, crew.config, crew.assignment, crew.partition,
        crew.roster, crew.leaving, crew.actorsStarted, crew.loops, crew.loopsStarted,
        crew.maintenance]
  exact keeps.trans alike.keeps

/-- A move of an actor keeps a session in step. -/
theorem Conduct.inStep {number : Nat} {actor : Actor}
    (conduct : session.Conduct actor offered next) (inStep : session.InStep none pending)
    (found : session.engine.actor? number = some actor) : next.InStep none pending := by
  have keeps : session.engine.Keeps next.engine := by
    cases conduct with
    | waits => exact .refl _
    | absorbs takes background =>
        exact keeps_putActor inStep.numbered found (.refl _)
          ⟨takes.number, fun heads => takes.heading ▸ heads⟩
    | ends wakes ending =>
        exact ⟨(Engine.Keeps.refl _).roster,
          fun former left => ⟨former, List.mem_of_mem_filter left, rfl⟩, rfl⟩
    | declines wakes lasting dispatches status =>
        rcases takes_awake? wakes with ⟨taken, takes⟩
        exact keeps_putActor inStep.numbered found dispatches.crew
          ⟨takes.number, fun heads => takes.heading ▸ heads⟩
    | settles engaged dispatches tires status =>
        exact keeps_putActor inStep.numbered found dispatches.crew
          ⟨engaged.same.1, fun heads => engaged.heading ▸ heading_of_tires tires heads⟩
    | sends engaged dispatches =>
        exact keeps_putActor inStep.numbered found dispatches.crew
          ⟨engaged.same.1, fun heads => engaged.heading ▸ heads⟩
    | @erases base actions _ middle last backend engaged before untouched erases after status =>
        have crew : session.engine.SameCrew
            ({ last with backend := backend } : Session).engine := before.crew.trans after.crew
        have tires : Tires base.intent .dormant := Or.inr ⟨rfl, _, erases.tearing⟩
        exact keeps_putActor inStep.numbered found crew
          ⟨engaged.same.1, fun heads => engaged.heading ▸ heading_of_tires tires heads⟩
  exact inStep.keeps keeps fun key _ _ active => conduct.retains key active

namespace InStep

variable {others : Order → Prop}

/-- An order that reaches its actor is on its way no longer, and the actor goes by it. -/
theorem receive {number : Nat} {trigger : Trigger} (inStep : session.InStep none pending)
    (isOrder : trigger.isOrder = true) (waiting : pending (number, trigger))
    (fewer : ∀ order, others order → pending order)
    (kept : ∀ order, pending order → others order ∨ order = (number, trigger))
    {update : Actor → Actor} (numbers : ∀ former, (update former).number = former.number)
    (hears : ∀ former, (update former).heading = former.heading.after trigger) :
    ({ session with engine := session.engine.updateActor number update } : Session).InStep none
      others := by
  have before : ∀ {key actor},
      (session.engine.updateActor number update).roster.find? key = some actor →
      ∃ former, session.engine.roster.find? key = some former ∧ actor.number = former.number ∧
        ((former.number = number ∧ actor.heading = former.heading.after trigger) ∨
          (former.number ≠ number ∧ actor = former)) := by
    intro key actor present
    rw [Engine.find?_updateActor, Option.map_eq_some_iff] at present
    rcases present with ⟨former, found, rfl⟩
    refine ⟨former, found, ?_⟩
    split
    · rename_i same
      exact ⟨numbers former, Or.inl ⟨same, hears former⟩⟩
    · rename_i different
      exact ⟨rfl, Or.inr ⟨different, rfl⟩⟩
  refine ⟨inStep.numbered.of_sameNumbers ⟨?_, ?_, rfl⟩, ?_, ?_, ?_, fun _ _ _ isNone => by
    cases isNone⟩
  · intro key actor present
    rcases before present with ⟨former, found, same, _⟩
    exact ⟨former, found, same⟩
  · intro actor left
    rcases List.mem_map.mp left with ⟨former, found, rfl⟩
    refine ⟨former, found, ?_⟩
    split
    · exact numbers former
    · rfl
  · exact fun order awaited => inStep.known order (fewer order awaited)
  · intro key actor present other deploys awaited
    rcases before present with ⟨former, found, same, _⟩
    rw [same] at awaited
    exact inStep.promised key former found other deploys (fewer _ awaited)
  · intro key actor present heads
    rcases before present with ⟨former, found, same, ⟨isNumber, heading⟩ | ⟨different, rfl⟩⟩
    · -- The actor heads for the manifest after all, so what it was told is to deploy.
      rw [heading] at heads
      rw [← isNumber] at waiting
      cases trigger with
      | deploy => exact Or.inl (inStep.promised key former found .deploy rfl waiting)
      | rollback => exact Or.inl (inStep.promised key former found .rollback rfl waiting)
      | undeploy mode => exact absurd heads (Intent.after_undeploy_ne _ mode)
      | _ => cases isOrder
    · rcases inStep.told key actor found heads with active | ⟨mode, awaited⟩
      · exact Or.inl active
      · rcases kept _ awaited with still | isDelivered
        · exact Or.inr ⟨mode, still⟩
        · exact absurd (congrArg Prod.fst isDelivered) different

/-- To deliver an order keeps a session in step. -/
theorem deliver {number : Nat} {trigger : Trigger} (inStep : session.InStep none pending)
    (isOrder : trigger.isOrder = true) (isWaiting : Bool) (waiting : pending (number, trigger))
    (fewer : ∀ order, others order → pending order)
    (kept : ∀ order, pending order → others order ∨ order = (number, trigger))
    (left : ∀ order ∈ Chore.orders (session.deliver number trigger isWaiting).2, others order) :
    (session.deliver number trigger isWaiting).1.InStep none others := by
  rw [Session.deliver] at left ⊢
  cases found : session.engine.actor? number with
  | none =>
      -- Nobody goes by the number, so that the order is for no actor of the roster.
      have nobody : ∀ key actor, session.engine.roster.find? key = some actor →
          actor.number ≠ number := by
        intro key actor present same
        have member := Engine.mem_actors_iff.mpr (Or.inl ⟨key, present⟩)
        have unknown := List.find?_eq_none.mp found actor member
        exact unknown (by simpa using same)
      refine { inStep with known := ?_, promised := ?_, told := ?_, clear := ?_ }
      · exact fun order awaited => inStep.known order (fewer order awaited)
      · exact fun key actor present other deploys awaited =>
          inStep.promised key actor present other deploys (fewer _ awaited)
      · intro key actor present heads
        rcases inStep.told key actor present heads with active | ⟨mode, awaited⟩
        · exact Or.inl active
        · rcases kept _ awaited with still | isDelivered
          · exact Or.inr ⟨mode, still⟩
          · exact absurd (congrArg Prod.fst isDelivered) (nobody key actor present)
      · exact fun _ _ _ isNone => by cases isNone
  | some actor =>
      rw [found] at left
      simp only at left ⊢
      split
      · exact inStep.receive isOrder waiting fewer kept (fun _ => rfl)
          fun former => former.heading_push trigger
      · rename_i prompt
        split
        · exact inStep.receive isOrder waiting fewer kept (fun _ => rfl)
            fun former => former.heading_push trigger
        · rename_i full
          rw [if_neg prompt, if_neg full] at left
          have still : ∀ order, others order ↔ pending order := by
            refine fun order => ⟨fewer order, fun awaited => ?_⟩
            rcases kept order awaited with still | rfl
            · exact still
            · exact left _ (by simp [Chore.orders, Chore.order?, isOrder])
          let waits (actor : Actor) : Actor := { actor with callers := actor.callers + 1 }
          have keeps : session.engine.Keeps (session.engine.updateActor number waits) :=
            Engine.keeps_updateActor (fun _ _ _ _ => ⟨rfl, id⟩) fun _ same => same
          have inStepStill : ({ session with
              engine := session.engine.updateActor number waits } : Session).InStep none pending :=
            inStep.keepsBackend keeps rfl
          exact inStepStill.congr still

end InStep

/-- A delivery that has to wait leaves its own order, and nothing else. -/
theorem eq_of_mem_orders_deliver {number : Nat} {trigger : Trigger} {isWaiting : Bool}
    {order : Order} (left : order ∈ Chore.orders (session.deliver number trigger isWaiting).2) :
    order = (number, trigger) := by
  rcases session.chores_deliver number trigger isWaiting with same | same
  · rw [same] at left
    cases left
  · rw [same, Chore.orders, List.mem_filterMap] at left
    rcases left with ⟨chore, isChore, own⟩
    rw [List.mem_singleton.mp isChore, Chore.order?] at own
    split at own
    · exact (Option.some.inj own).symm
    · cases own

/--
All that an engine does keeps a session in step. The orders on their way are those that were before
or are left by the deed; none of them goes but one that is delivered.
-/
theorem InStep.afterDeed {others : Order → Prop}
    (inStep : session.InStep deed.removed? pending) (orderless : session.LoopsOrderless)
    (waits : ∀ chore order, deed = .perform chore → chore.order? = some order → pending order)
    (came : ∀ order, others order →
      pending order ∨ order ∈ ordersLeft (session.afterDeed deed).2)
    (left : ∀ order ∈ ordersLeft (session.afterDeed deed).2, others order)
    (kept : ∀ order, pending order →
      others order ∨ ∃ chore, deed = .perform chore ∧ chore.order? = some order) :
    (session.afterDeed deed).1.InStep none others := by
  -- A delivery takes its own order from those on their way, and all other deeds only add some.
  by_cases ordering : ∃ chore order, deed = .perform chore ∧ chore.order? = some order
  · rcases ordering with ⟨chore, order, rfl, ordered⟩
    have waiting := waits chore order rfl ordered
    have keptBut : ∀ other, pending other → others other ∨ other = order := by
      intro other awaited
      rcases kept other awaited with still | ⟨_, same, isOrder⟩
      · exact Or.inl still
      · cases same
        exact Or.inr (Option.some.inj (isOrder.symm.trans ordered))
    rw [Session.afterDeed] at came left ⊢
    split
    · rename_i can
      rw [if_pos can] at came left
      cases chore with
      | deliver number trigger isWaiting =>
          rw [Chore.order?] at ordered
          split at ordered
          · rename_i isOrder
            obtain rfl := Option.some.inj ordered
            refine inStep.deliver isOrder isWaiting waiting ?_ keptBut left
            intro other awaited
            rcases came other awaited with former | isLeft
            · exact former
            · rwa [eq_of_mem_orders_deliver isLeft]
          · cases ordered
      | _ => cases ordered
    · rename_i cannot
      rw [if_neg cannot] at came left
      have own : ∀ other, other ∈ ordersLeft (.ok [chore]) ↔ other = order := by
        simp [ordersLeft, Chore.orders, ordered, eq_comm]
      refine inStep.congr fun other => ⟨fun awaited => ?_, fun awaited => ?_⟩
      · rcases came other awaited with former | isLeft
        · exact former
        · rwa [(own other).mp isLeft]
      · rcases keptBut other awaited with still | same
        · exact still
        · exact left other ((own other).mpr same)
  · have same : ∀ order, others order ↔
        pending order ∨ order ∈ ordersLeft (session.afterDeed deed).2 := by
      refine fun order => ⟨came order, fun cause => cause.elim (fun awaited => ?_) (left order)⟩
      rcases kept order awaited with still | ⟨chore, isPerform, isOrder⟩
      · exact still
      · exact absurd ⟨chore, order, isPerform, isOrder⟩ ordering
    by_cases moves : ∃ number, deed = .moveActor number
    · rcases moves with ⟨number, rfl⟩
      rw [Session.afterDeed] at same ⊢
      split
      · rename_i actor found
        rw [found] at same
        refine ((session.conduct_moveActor actor).inStep inStep found).congr fun order => ?_
        simpa [ordersLeft, Chore.orders] using same order
      · rename_i missing
        rw [missing] at same
        refine inStep.congr fun order => ?_
        simpa [ordersLeft, Chore.orders] using same order
    · rw [not_exists] at moves
      have unordered : ∀ chore, session.chore? deed = some chore → chore.order? = none := by
        intro chore does
        cases deed with
        | perform other =>
            cases does
            rw [Option.eq_none_iff_forall_ne_some]
            exact fun order isOrder => ordering ⟨chore, order, rfl, isOrder⟩
        | moveLoop number =>
            rcases Option.bind_eq_some_iff.mp does with ⟨loop, found, first⟩
            have still := orderless loop (List.mem_of_find?_eq_some found)
            rw [List.head?_eq_some_iff] at first
            rcases first with ⟨rest, loopChores⟩
            rw [loopChores, Chore.orders_cons, List.append_eq_nil_iff,
              Option.toList_eq_nil_iff] at still
            exact still.1
        | _ => cases does
      rcases session.serves_afterDeed moves with ⟨orders, serves, orderedLeft⟩
      refine ((serves.inStep inStep unordered).congr fun order => ?_).relax
      rw [orderedLeft unordered]
      exact same order

end Session

end Reconciler
