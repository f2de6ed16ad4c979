import Reconciler.Proofs.Fleet.Loops
import Reconciler.Proofs.Fleet.Posts

/-!
# Who is released

An engine that rebalances fills the posts of its own applications at once, and is left with the
chore to release the actors of others. The list of these is made once, when the engine is asked, and
nobody looks at it again. So a chore is harmless as long as it takes nobody off the roster whose
application is the engine's own; while the split stays as it is, and unless the engine is asked to
shut down, harmless chores lead to harmless ones only.
-/

namespace Reconciler

namespace Chore

/-- The actors that a chore takes off the roster, by itself or by those that come in its place. -/
def released : Chore → List ActorKey
  | stop key => [key]
  | release keys _ _ => keys
  | _ => []

/-- Whether a chore leaves the actors of some applications where they are. -/
def isHarmless (own : AppName → Bool) : Chore → Bool
  | stopAll => false
  | chore => chore.released.all fun key => !own key.app

/-- Whether a chore comes of the release of actors. -/
def isRelease : Chore → Bool
  | deliver .. => true
  | awaitEnd _ => true
  | stop _ => true
  | release .. => true
  | _ => false

/-- None of some chores takes off the roster an actor of some applications. -/
def Harmless (own : AppName → Bool) (chores : List Chore) : Prop :=
  ∀ chore ∈ chores, chore.isHarmless own = true

variable {own : AppName → Bool} {key : ActorKey}

theorem typical_harmless (own : AppName → Bool) : Typical (Harmless own) where
  nothing := List.forall_mem_nil _
  order _ _ _ := List.forall_mem_singleton.mpr rfl
  announced _ _ _ _ := List.forall_mem_cons.mpr ⟨rfl, List.forall_mem_singleton.mpr rfl⟩

theorem isHarmless_release {keys : List ActorKey} {owned : Nat} {changed : Bool} :
    (release keys owned changed).isHarmless own = true ↔ ∀ key ∈ keys, own key.app = false := by
  simp [isHarmless, released]

/-- Who is stopped by a harmless chore works for an application of somebody else. -/
theorem foreign_of_stopped? {chore : Chore} (harmless : chore.isHarmless own = true)
    (stops : chore.stopped? = some key) : own key.app = false := by
  cases chore with
  | stop other =>
      cases stops
      simpa [isHarmless, released] using harmless
  | _ => cases stops

end Chore

namespace Session

variable {own : AppName → Bool} {session : Session} {key : ActorKey}

/-- Harmless chores leave harmless chores. -/
theorem harmless_perform {chore : Chore} (harmless : chore.isHarmless own = true)
    {more : List Chore} (done : (session.perform chore).2 = .ok more) :
    Chore.Harmless own more := by
  cases chore with
  | deliver number trigger isWaiting =>
      have same : (session.deliver number trigger isWaiting).2 = more := Except.ok.inj done
      rcases session.chores_deliver number trigger isWaiting with left | left
      · rw [← same, left]
        exact List.forall_mem_nil _
      · rw [← same, left]
        exact List.forall_mem_singleton.mpr rfl
  | stop key =>
      have same : (session.takeOff key).2 = more := Except.ok.inj done
      rw [← same, takeOff]
      split
      · exact List.forall_mem_nil _
      · exact List.forall_mem_cons.mpr ⟨rfl, List.forall_mem_singleton.mpr rfl⟩
  | stopAll => cases harmless
  | release keys owned changed =>
      have same : (session.release owned changed keys).2 = more := Except.ok.inj done
      rw [Chore.isHarmless_release] at harmless
      rw [← same]
      cases keys with
      | nil => exact List.forall_mem_nil _
      | cons key keys =>
          rw [List.forall_mem_cons] at harmless
          rw [release]
          split
          · refine List.forall_mem_cons.mpr ⟨?_, List.forall_mem_singleton.mpr ?_⟩
            · simp [Chore.isHarmless, Chore.released, harmless.1]
            · exact Chore.isHarmless_release.mpr harmless.2
          · exact List.forall_mem_singleton.mpr (Chore.isHarmless_release.mpr harmless.2)
  | resend start report keys =>
      cases keys with
      | nil =>
          cases done
          exact List.forall_mem_nil _
      | cons key keys =>
          have same : (session.resendFirst start report key keys).2 = more := Except.ok.inj done
          rw [← same, resendFirst]
          split
          · exact List.forall_mem_singleton.mpr rfl
          · refine List.forall_mem_append.mpr ⟨?_, List.forall_mem_singleton.mpr rfl⟩
            split
            · exact List.forall_mem_singleton.mpr rfl
            · exact List.forall_mem_nil _
  | offer start report command keys =>
      rw [perform] at done
      split at done
      · cases done
        exact List.forall_mem_singleton.mpr rfl
      · cases done
  | _ =>
      cases done
      exact List.forall_mem_nil _

/-- The chores of a release do not fail, and others of a release come in their place. -/
theorem release_perform (session : Session) {chore : Chore} (isRelease : chore.isRelease = true) :
    ∃ more, (session.perform chore).2 = .ok more ∧ ∀ other ∈ more, other.isRelease = true := by
  cases chore with
  | deliver number trigger isWaiting =>
      refine ⟨(session.deliver number trigger isWaiting).2, rfl, ?_⟩
      rcases session.chores_deliver number trigger isWaiting with left | left
      · rw [left]
        exact List.forall_mem_nil _
      · rw [left]
        exact List.forall_mem_singleton.mpr rfl
  | awaitEnd number => exact ⟨[], rfl, List.forall_mem_nil _⟩
  | stop key =>
      refine ⟨(session.takeOff key).2, rfl, ?_⟩
      rw [takeOff]
      split
      · exact List.forall_mem_nil _
      · exact List.forall_mem_cons.mpr ⟨rfl, List.forall_mem_singleton.mpr rfl⟩
  | release keys owned changed =>
      refine ⟨(session.release owned changed keys).2, rfl, ?_⟩
      cases keys with
      | nil => exact List.forall_mem_nil _
      | cons key keys =>
          rw [release]
          split
          · exact List.forall_mem_cons.mpr ⟨rfl, List.forall_mem_singleton.mpr rfl⟩
          · exact List.forall_mem_singleton.mpr rfl
  | _ => cases isRelease

/-- An actor that a chore releases is off the roster after it, or released by what is left. -/
theorem released_perform {chore : Chore} (releases : key ∈ chore.released)
    (stays : (session.perform chore).1.mans key = true) {more : List Chore}
    (done : (session.perform chore).2 = .ok more) : ∃ other ∈ more, key ∈ other.released := by
  cases chore with
  | stop other =>
      obtain rfl := List.mem_singleton.mp releases
      have gone : (session.takeOff key).1.mans key = false := by
        rw [mans_takeOff, bne_self_eq_false, Bool.and_false]
      cases gone.symm.trans stays
  | release keys owned changed =>
      have same : (session.release owned changed keys).2 = more := Except.ok.inj done
      cases keys with
      | nil => cases releases
      | cons first keys =>
          change (session.release owned changed (first :: keys)).1.mans key = true at stays
          rw [release] at same stays
          split at same
          · subst same
            rcases List.mem_cons.mp releases with rfl | later
            · exact ⟨_, List.mem_cons_self, List.mem_singleton_self key⟩
            · exact ⟨_, List.mem_cons_of_mem _ (List.mem_singleton_self _), later⟩
          · rename_i absent
            subst same
            rw [if_neg absent] at stays
            rcases List.mem_cons.mp releases with rfl | later
            · exact absurd stays absent
            · exact ⟨_, List.mem_singleton_self _, later⟩
  | _ => cases releases

/-- What becomes of a chore of a release: an actor stays on the roster only to be released later. -/
theorem release_afterDeed (session : Session) {chore : Chore} (isRelease : chore.isRelease = true) :
    ∃ more, (session.afterDeed (.perform chore)).2 = .ok more ∧
      (∀ other ∈ more, other.isRelease = true) ∧
      ∀ key ∈ chore.released, (session.afterDeed (.perform chore)).1.mans key = true →
        ∃ other ∈ more, key ∈ other.released := by
  rw [afterDeed]
  split
  · rcases session.release_perform isRelease with ⟨more, done, others⟩
    exact ⟨more, done, others, fun key releases stays => released_perform releases stays done⟩
  · exact ⟨[chore], rfl, List.forall_mem_singleton.mpr isRelease,
      fun key releases _ => ⟨chore, List.mem_singleton_self chore, releases⟩⟩

/-- An errand that was harmless is harmless when its member has gone on with it. -/
theorem harmless_goOn (session : Session) {chore : Chore} {rest : List Chore}
    (harmless : Chore.Harmless own (chore :: rest)) (member : Nat) :
    Chore.Harmless own (Errand.goOn ⟨member, chore :: rest⟩
      (session.afterDeed (.perform chore)).2).chores := by
  rw [Chore.Harmless, List.forall_mem_cons] at harmless
  rw [afterDeed]
  split
  · cases performed : (session.perform chore).2 with
    | error problem => exact List.forall_mem_nil _
    | ok more =>
        exact List.forall_mem_append.mpr ⟨harmless_perform harmless.1 performed, harmless.2⟩
  · exact List.forall_mem_cons.mpr harmless

end Session

namespace Call

open Session

variable {session later : Session}

theorem run_ensureActor (key : ActorKey) (intent : Intent) (session : Session) :
    (ensureActor key intent).run session = (.ok (session.engine.ensureActor key intent).2,
      { session with engine := (session.engine.ensureActor key intent).1 }) :=
  rfl

theorem mem_listDeployments_iff {backend : Backend} {app : AppName} {record : DeploymentRecord} :
    (app, record) ∈ backend.store.listDeployments ↔
      backend.store.deployment? app = some record := by
  constructor
  · exact areRecorded_listDeployments backend (app, record)
  · intro recorded
    rcases Option.bind_eq_some_iff.mp recorded with ⟨history, found, deployed⟩
    refine List.mem_filterMap.mpr ⟨(app, history), SortedMap.mem_entries_iff.mpr found, ?_⟩
    simp only [deployed, Option.map_some]

/-- The deployments of an engine's own applications. -/
def ownDeployments (session : Session) : List (AppName × DeploymentRecord) :=
  session.backend.store.listDeployments.filter fun deployment => session.engine.owns deployment.1

theorem mem_ownDeployments_iff {app : AppName} {record : DeploymentRecord} :
    (app, record) ∈ ownDeployments session ↔
      session.backend.store.deployment? app = some record ∧ session.engine.owns app = true := by
  rw [ownDeployments, List.mem_filter, mem_listDeployments_iff]

/-- If a call answers, a property holds of its answer and of the session after it. -/
def Ensures {α : Type} (call : Call α) (session : Session) (holds : α → Session → Prop) : Prop :=
  ∀ value later, call.run session = (.ok value, later) → holds value later

theorem Ensures.bind {α β : Type} {call : Call α} {next : α → Call β}
    {fits : α → Session → Prop} {holds : β → Session → Prop} (first : call.Ensures session fits)
    (rest : ∀ value later, fits value later → (next value).Ensures later holds) :
    (call >>= next).Ensures session holds := by
  intro answer last ran
  rw [run_bind] at ran
  rcases asked : call.run session with ⟨problem | value, later⟩
  · rw [asked] at ran
    cases ran
  · rw [asked] at ran
    exact rest value later (first value later asked) answer last ran

theorem ensures_pure {α : Type} {value : α} {holds : α → Session → Prop}
    (fit : holds value session) : (pure value : Call α).Ensures session holds := by
  intro answer later ran
  cases ran
  exact fit

/-- A call that only asks something comes first. -/
theorem Ensures.after {α β : Type} {call : Call α} {next : α → Call β}
    {holds : β → Session → Prop} (inquires : call.Inquires session)
    (rest : ∀ value, call.run session = (.ok value, session) →
      (next value).Ensures session holds) : (call >>= next).Ensures session holds := by
  have same : call.Ensures session fun value later =>
      later = session ∧ call.run session = (.ok value, session) := by
    intro value later ran
    obtain rfl := inquires.same ran
    exact ⟨rfl, ran⟩
  refine same.bind fun value later asked => ?_
  rw [asked.1]
  exact rest value asked.2

/-- What comes of taking up deployments: their posts are filled, and the backend stays as it is. -/
structure Fills (deployments : List (AppName × DeploymentRecord)) (session later : Session) :
    Prop where
  upholds : session.Upholds none none later
  backend : later.backend = session.backend
  manned : ∀ app record, (app, record) ∈ deployments → later.mans ⟨record.lattice, app⟩ = true

/-- The post of one deployment is filled first, and those of others after it. -/
theorem Fills.cons {middle : Session} {deployment : AppName × DeploymentRecord}
    {rest : List (AppName × DeploymentRecord)} (first : Fills [deployment] session middle)
    (others : Fills rest middle later) : Fills (deployment :: rest) session later where
  upholds := first.upholds.trans others.upholds
  backend := others.backend.trans first.backend
  manned app record member := by
    rcases List.mem_cons.mp member with isFirst | isRest
    · have manned := first.manned app record (List.mem_singleton.mpr isFirst)
      exact others.upholds.kept _ manned fun none => by cases none
    · exact others.manned app record isRest

theorem ensures_adopt {deployments : List (AppName × DeploymentRecord)}
    (own : ∀ deployment ∈ deployments, session.engine.owns deployment.1 = true) :
    (adopt deployments).Ensures session fun _ later => Fills deployments session later := by
  induction deployments generalizing session with
  | nil => exact ensures_pure ⟨.refl session, rfl, fun _ _ member => by cases member⟩
  | cons deployment rest ih =>
      rcases deployment with ⟨app, record⟩
      rw [List.forall_mem_cons] at own
      have hires : (ensureActor ⟨record.lattice, app⟩ (intentOf record.phase)).Ensures session
          fun _ hired => Fills [(app, record)] session hired := by
        intro ensured hired ran
        rw [run_ensureActor] at ran
        cases ran
        refine ⟨upholds_ensureActor own.1 _, rfl, fun other known member => ?_⟩
        cases List.mem_singleton.mp member
        rw [mans, Engine.contains_ensureActor, beq_self_eq_true, Bool.or_true]
      have adopts : ∀ {middle : Session} {isNew : Bool}, Fills [(app, record)] session middle →
          (do return isNew || (← adopt rest) : Call Bool).Ensures middle
            fun _ later => Fills ((app, record) :: rest) session later := by
        intro middle isNew filled
        refine (ih fun deployment member => ?_).bind fun more last others =>
          ensures_pure (filled.cons others)
        rw [filled.upholds.owns]
        exact own.2 deployment member
      refine hires.bind fun ensured hired filled => ?_
      rcases ensured with ⟨number, _ | _⟩
      · exact adopts filled
      · have nudges : (alter fun session : Session =>
            { session with
              engine := session.engine.nudge ⟨record.lattice, app⟩ .resync }).Ensures hired
            fun _ nudged => Fills [(app, record)] session nudged := by
          intro _ nudged ran
          cases ran
          have upheld : hired.Upholds none none _ := upholds_nudge ⟨record.lattice, app⟩ .resync
          refine ⟨filled.upholds.trans upheld, filled.backend, fun other known member => ?_⟩
          exact upheld.kept _ (filled.manned other known member) fun none => by cases none
        exact nudges.bind fun _ _ stillFilled => adopts stillFilled

/--
What an engine answers that rebalances: how many deployments are its own, after their posts have
been filled; and the actors of others are to be released.
-/
theorem ensures_rebalance (session : Session) :
    rebalance.Ensures session fun pending later => Fills (ownDeployments session) session later ∧
      ∃ changed, pending = ⟨[.release
        (later.engine.roster.keys.filter fun key => !session.engine.owns key.app)
        (ownDeployments session).length changed], (ownDeployments session).length⟩ := by
  refine .after (inquires_query _ _ session) fun deployments listed => ?_
  have answered := query_eq_ok listed
  obtain rfl := Except.ok.inj answered
  refine .after (inquires_get session) fun current ran => ?_
  cases ran
  have adopts : (adopt (ownDeployments session)).Ensures session fun _ later =>
      Fills (ownDeployments session) session later :=
    ensures_adopt fun deployment member => (List.mem_filter.mp member).2
  refine adopts.bind fun changed later filled => ?_
  refine .after (inquires_get later) fun current ran => ensures_pure ⟨filled, changed, ?_⟩
  cases ran
  rfl

/-- Where all posts of some deployments are filled, there is nothing to take up. -/
theorem run_adopt_of_manned {deployments : List (AppName × DeploymentRecord)}
    (manned : ∀ app record, (app, record) ∈ deployments →
      session.mans ⟨record.lattice, app⟩ = true) :
    (adopt deployments).run session = (.ok false, session) := by
  induction deployments with
  | nil => rfl
  | cons deployment rest ih =>
      rcases deployment with ⟨app, record⟩
      have here : session.engine.roster.contains ⟨record.lattice, app⟩ = true :=
        manned app record List.mem_cons_self
      rw [SortedMap.contains_eq_isSome, Option.isSome_iff_exists] at here
      rcases here with ⟨actor, present⟩
      have keeps : (ensureActor ⟨record.lattice, app⟩ (intentOf record.phase)).run session =
          (.ok (actor.number, false), session) := by
        rw [run_ensureActor, Engine.ensureActor, present]
      have others := ih fun other known member => manned other known (List.mem_cons_of_mem _ member)
      rw [adopt, run_bind, keeps]
      simp only [Bool.false_eq_true, if_false, run_bind, others]
      rfl

/-- An engine that has rebalanced, and that does so again, has nothing to do. -/
theorem run_rebalance_of_settled (inReach : session.backend.outage = none)
    (own : ∀ key, session.mans key = true → session.engine.owns key.app = true)
    (manned : ∀ app record, (app, record) ∈ ownDeployments session →
      session.mans ⟨record.lattice, app⟩ = true) :
    rebalance.run session = (.ok ⟨[.release [] (ownDeployments session).length false],
      (ownDeployments session).length⟩, session) := by
  have lists : session.backend.query .listDeployments
      (fun store => .ok store.listDeployments) = .ok session.backend.store.listDeployments := by
    rw [Backend.query, Backend.reach, inReach]
    rfl
  have nobody : (session.engine.roster.keys.filter fun key =>
      !session.engine.owns key.app) = [] := by
    refine List.filter_eq_nil_iff.mpr fun key member => ?_
    have manned : session.mans key = true := by
      rw [mans, SortedMap.contains_eq_isSome, Option.isSome_iff_exists]
      exact SortedMap.mem_keys_iff.mp member
    rw [own key manned]
    simp
  have adopted := run_adopt_of_manned manned
  rw [rebalance, run_bind, run_query, lists]
  change ((do
    let changed ← adopt (ownDeployments session)
    let lost := (← get).engine.roster.keys.filter fun key => !session.engine.owns key.app
    return ⟨[.release lost (ownDeployments session).length changed],
      (ownDeployments session).length⟩ : Call (Pending Nat))).run session = _
  rw [run_bind, adopted]
  change (Except.ok (Pending.mk [Chore.release (session.engine.roster.keys.filter fun key =>
    !session.engine.owns key.app) _ false] _), session) = _
  rw [nobody]

/-- Who is released when an engine rebalances works for applications of others. -/
theorem harmless_release (session later : Session) (owned : Nat) (changed : Bool) :
    (Chore.release (later.engine.roster.keys.filter fun key => !session.engine.owns key.app) owned
      changed).isHarmless session.engine.owns = true := by
  refine Chore.isHarmless_release.mpr fun key member => ?_
  simpa using (List.mem_filter.mp member).2

theorem ensures_rebalance_then (session : Session) {chore : Chore}
    (harmless : chore.isHarmless session.engine.owns = true) :
    (do return ⟨(← rebalance).chores ++ [chore], ()⟩ : Call (Pending Unit)).Ensures session
      fun pending _ => Chore.Harmless session.engine.owns pending.chores := by
  refine (ensures_rebalance session).bind fun pending later answered => ensures_pure ?_
  rcases answered with ⟨_, changed, rfl⟩
  exact List.forall_mem_cons.mpr ⟨harmless_release session later _ changed,
    List.forall_mem_singleton.mpr harmless⟩

theorem Answers.ensures {α : Type} {call : Call α} {holds : α → Prop}
    (answers : call.Answers holds) : call.Ensures session fun value _ => holds value :=
  fun value later ran => answers session value later ran

/-- Unless it is to shut down, what an engine is asked for leaves its own actors where they are. -/
theorem harmless_request (session : Session) {request : Request} (steady : request.splits = false)
    (lasting : request ≠ .shutdown) :
    request.call.Ensures session fun chores _ =>
      Chore.Harmless session.engine.owns chores := by
  have typical := Chore.typical_harmless session.engine.owns
  cases request with
  | submit manifest => exact (answers_submit typical manifest).map.ensures
  | rollback app version => exact (answers_rollback typical app version).map.ensures
  | deploy app version lattice => exact (answers_deploy typical app version lattice).map.ensures
  | undeploy app mode => exact (answers_undeploy typical app mode).map.ensures
  | deleteApplication app => exact (answers_deleteApplication typical app).map.ensures
  | setPartition partition => cases steady
  | assign app => cases steady
  | revoke app => cases steady
  | rebalance =>
      refine (ensures_rebalance session).bind fun pending later answered => ensures_pure ?_
      rcases answered with ⟨_, changed, rfl⟩
      exact List.forall_mem_singleton.mpr (harmless_release session later _ changed)
  | reapCommands =>
      refine Answers.ensures (Answers.map (answers_reapCommands fun start report keys => ?_))
      exact List.forall_mem_singleton.mpr rfl
  | resync =>
      exact (ensures_rebalance_then session rfl).bind fun pending _ harmless =>
        ensures_pure harmless
  | start =>
      exact (ensures_rebalance_then session rfl).bind fun pending _ harmless =>
        ensures_pure harmless
  | shutdown => exact absurd rfl lasting
  | _ => exact (answers_outright typical _).ensures

end Call

namespace Session

variable {own : AppName → Bool} {session : Session} {deed : Deed}

/-- All that the maintenance loops have to do leaves the actors of some applications. -/
abbrev LoopsHarmless (own : AppName → Bool) (session : Session) : Prop :=
  session.LoopsHold fun _ chore => chore.isHarmless own = true

theorem LoopsHarmless.putLoop (harmless : session.LoopsHarmless own) {loop : MaintenanceLoop}
    (fit : Chore.Harmless own loop.chores) : (session.putLoop loop).LoopsHarmless own := by
  intro other member chore isChore
  rcases List.mem_map.mp member with ⟨former, formerMember, rfl⟩
  split at isChore
  · exact fit chore isChore
  · exact harmless former formerMember chore isChore

theorem LoopsHarmless.perform (harmless : session.LoopsHarmless own) (chore : Chore) :
    (session.perform chore).1.LoopsHarmless own := by
  intro loop member other isChore
  rcases mem_loops_perform member with former | isNew
  · exact harmless loop former other isChore
  · rw [isNew] at isChore
    cases isChore

theorem LoopsHarmless.undertake (harmless : session.LoopsHarmless own) {loop : MaintenanceLoop}
    (idle : loop.chores = []) {call : Call (Pending Unit)}
    (same : (call.run session).2.engine.loops = session.engine.loops)
    (fit : call.Ensures session fun pending _ => Chore.Harmless own pending.chores) :
    (session.undertake loop call).LoopsHarmless own := by
  have kept : (call.run session).2.LoopsHarmless own := by
    intro other member
    rw [same] at member
    exact harmless other member
  rw [Session.undertake]
  rcases ran : call.run session with ⟨problem | pending, later⟩
  · rw [ran] at kept
    refine kept.putLoop ?_
    rw [idle]
    exact List.forall_mem_nil _
  · rw [ran] at kept
    exact kept.putLoop (fit pending later ran)

theorem LoopsHarmless.endLoop (harmless : session.LoopsHarmless own) (loop : MaintenanceLoop) :
    (session.endLoop loop).LoopsHarmless own :=
  fun other member => harmless other (List.mem_of_mem_filter member)

theorem LoopsHarmless.beginDuty (harmless : session.LoopsHarmless session.engine.owns)
    {loop : MaintenanceLoop} (idle : loop.chores = []) (timers : Timers) :
    (session.beginDuty loop timers).LoopsHarmless session.engine.owns := by
  rw [Session.beginDuty]
  simp only
  split
  · have serves : Call.reapCommands.Serves (.turnStore none) none (fun _ => []) session :=
      Call.serves_reapCommands fun _ _ _ => rfl
    refine harmless.undertake ?_ (Session.Serves.loops serves rfl) (Call.Answers.ensures ?_)
    · exact idle
    · exact Call.answers_reapCommands fun _ _ _ => List.forall_mem_singleton.mpr rfl
  · split
    · have reaps : session.Serves (.turnStore none) none _ _ _ :=
        serves_reapHosts session.now.wall
      have kept : (session.reapHosts session.now.wall).1.LoopsHarmless session.engine.owns := by
        intro other member
        rw [reaps.loops rfl] at member
        exact harmless other member
      rcases answered : session.reapHosts session.now.wall with ⟨next, _ | count⟩
      · rw [answered] at kept
        exact kept.endLoop loop
      · rw [answered] at kept
        refine kept.putLoop ?_
        rw [Chore.Harmless, idle]
        exact List.forall_mem_nil _
    · split
      · have serves : Call.resync.Serves (.turnStore none) none (fun _ => []) session :=
          Call.serves_resync fun _ _ _ => rfl
        refine harmless.undertake ?_ (Session.Serves.loops serves rfl)
          (Call.ensures_rebalance_then session rfl)
        exact idle
      · split
        · exact harmless.endLoop loop
        · exact harmless

theorem LoopsHarmless.moveLoop (harmless : session.LoopsHarmless session.engine.owns)
    {loop : MaintenanceLoop} (member : loop ∈ session.engine.loops) :
    (session.moveLoop loop).LoopsHarmless session.engine.owns := by
  have own := harmless loop member
  rw [Session.moveLoop]
  split
  · rename_i chore chores loopChores
    rw [loopChores, List.forall_mem_cons] at own
    split
    · have kept := LoopsHarmless.perform harmless chore
      rw [moveOn]
      rcases done : session.perform chore with ⟨later, problem | more⟩
      · rw [done] at kept
        exact kept.putLoop (List.forall_mem_nil _)
      · rw [done] at kept
        refine kept.putLoop (List.forall_mem_append.mpr ⟨?_, own.2⟩)
        exact harmless_perform own.1 (congrArg Prod.snd done)
    · exact harmless
  · exact harmless.putLoop own
  · rename_i timers loopChores someTimers
    exact harmless.beginDuty loopChores timers

/-- What the maintenance loops have to do stays harmless while the split stays as it is. -/
theorem LoopsHarmless.afterDeed (harmless : session.LoopsHarmless session.engine.owns)
    (lasting : deed ≠ .answer .shutdown) :
    (session.afterDeed deed).1.LoopsHarmless session.engine.owns := by
  have of_same : ∀ {later : Session}, later.engine.loops = session.engine.loops →
      later.LoopsHarmless session.engine.owns := by
    intro later same other member
    rw [same] at member
    exact harmless other member
  cases deed with
  | answer request =>
      have still : ∀ number, Deed.answer request ≠ .moveActor number := by rintro _ ⟨⟩
      rcases session.serves_afterDeed still with ⟨orders, served, _⟩
      refine of_same (served.loops ?_)
      unfold Deed.tendsLoops
      split
      · rename_i same
        exact absurd same lasting
      · rename_i same
        cases same
      · rfl
  | perform chore =>
      rw [Session.afterDeed]
      split
      · exact LoopsHarmless.perform harmless chore
      · exact harmless
  | moveActor number =>
      rw [Session.afterDeed]
      split
      · rename_i actor _
        exact of_same (session.conduct_moveActor actor).loops
      · exact harmless
  | moveLoop number =>
      rw [Session.afterDeed]
      split
      · rename_i loop found
        exact harmless.moveLoop (List.mem_of_find?_eq_some found)
      · exact harmless
  | turnSink failure delay => exact of_same rfl
  | turnStore outage => exact of_same rfl

end Session

end Reconciler
