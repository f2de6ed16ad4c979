import Reconciler.Proofs.Fleet.Members

/-!
# How long deployments last

An application stays deployed to a lattice until somebody asks an engine that works on the same
store to undeploy or to delete it. No move of an actor ends a deployment: at the end of a teardown
only what is being removed is deleted.
-/

namespace Reconciler

namespace Session

variable {deed : Deed} {doing : Option Chore} {session next : Session} {key : ActorKey}

theorem Service.isActive {offered : List Command} {orders : List Order}
    (service : Service deed doing session offered orders next)
    (unasked : deed.removed? ≠ some key.app)
    (active : session.backend.isActive key = true) : next.backend.isActive key = true := by
  cases service with
  | dispatches dispatches => rwa [dispatches.backend]
  | stores retains => exact retains key active
  | removes asked recorded present mode retains =>
      refine retains key ?_ active
      rintro rfl
      exact unasked asked
  | @delivers number trigger isWaiting _ =>
      rcases session.exists_deliver_eq number trigger isWaiting with ⟨roster, leaving, same⟩
      rwa [same]
  | takesOff key =>
      rcases session.exists_takeOff_eq key with ⟨roster, leaving, same⟩
      rwa [same]
  | _ => exact active

theorem Serves.isActive {offered : List Command} {orders : List Order}
    (serves : session.Serves deed doing offered orders next)
    (unasked : deed.removed? ≠ some key.app)
    (active : session.backend.isActive key = true) : next.backend.isActive key = true := by
  induction serves with
  | refl _ => exact active
  | head service _ ih => exact ih (service.isActive unasked active)

/-- What is deleted at the end of a teardown is being removed, and so is not deployed. -/
theorem Erases.retains {actor : Actor} {backend : Backend}
    (erases : session.Erases actor backend) : session.backend.Retains backend := by
  rcases erases.deleted with ⟨existed, deleted⟩
  rcases erases.removing with ⟨record, found, removing, _⟩
  rcases Backend.change_eq_ok deleted with ⟨store, erased, rfl⟩
  refine Backend.retains_of_delete (Except.ok.inj erased) ?_
  intro other recorded
  obtain rfl := Option.some.inj (recorded.symm.trans (Except.ok.inj (Backend.query_eq_ok found)))
  rw [removing]
  exact fun isActive => by cases isActive

/-- No move of an actor ends a deployment. -/
theorem Conduct.retains {actor : Actor} {offered : List Command}
    (conduct : session.Conduct actor offered next) : session.backend.Retains next.backend := by
  have same : ∀ {later : Session}, later.backend = session.backend →
      session.backend.Retains later.backend := by
    intro later same
    rw [same]
    exact .refl _
  cases conduct with
  | declines wakes lasting dispatches status => exact same dispatches.backend
  | settles engaged dispatches tires status => exact same dispatches.backend
  | sends engaged dispatches => exact same dispatches.backend
  | erases engaged before untouched erases after status =>
      exact (same before.backend).trans erases.retains
  | _ => exact .refl _

/-- A deployment lasts through a deed unless it asks for the removal of the application. -/
theorem isActive_afterDeed (unasked : deed.removed? ≠ some key.app)
    (active : session.backend.isActive key = true) :
    (session.afterDeed deed).1.backend.isActive key = true := by
  rcases session.conduct_or_serves_afterDeed deed with ⟨_, _, _, _, conduct⟩ | ⟨_, serves⟩
  · exact conduct.retains key active
  · exact serves.isActive unasked active

end Session

namespace Fleet

/-- Whether two members work on the same backend. -/
def sharesBackend (fleet : Fleet) (index other : Nat) : Bool :=
  index == other || (!fleet.hasOwn index && !fleet.hasOwn other)

variable {fleet : Fleet} {index other : Nat}

theorem sharesBackend_self (fleet : Fleet) (index : Nat) :
    fleet.sharesBackend index index = true := by
  simp [sharesBackend]

theorem sharesBackend_of_not_hasOwn (shared : fleet.hasOwn other = false)
    (alsoShared : fleet.hasOwn index = false) : fleet.sharesBackend other index = true := by
  simp [sharesBackend, shared, alsoShared]

end Fleet

namespace World

variable {world : World} {acts : List Act} {act : Act} {index : Nat} {session next : Session}
  {key : ActorKey}

theorem hasOwn_putSession (fleet : Fleet) (index other : Nat) (session : Session) :
    (fleet.putSession index session).hasOwn other = fleet.hasOwn other := by
  rcases found : fleet.members[index]? with _ | ⟨engine, own⟩
  · rw [Fleet.putSession.eq_def, found]
  · have bound : index < fleet.members.length := (List.getElem?_eq_some_iff.mp found).1
    have changed : ∀ member : Member, member.own.isSome = own.isSome →
        ((fleet.members.set index member)[other]?).any (fun member => member.own.isSome) =
          (fleet.members[other]?).any fun member => member.own.isSome := by
      intro member same
      by_cases here : index = other
      · subst here
        rw [List.getElem?_set_self bound, found, Option.any_some, Option.any_some, same]
      · rw [List.getElem?_set_ne here]
    cases own with
    | none =>
        rw [Fleet.putSession_of_shared found]
        exact changed _ rfl
    | some backend =>
        rw [Fleet.putSession_of_own found]
        exact changed _ rfl

/-- Members keep to the backends that they work on. -/
theorem hasOwn_after (world : World) (act : Act) (index : Nat) :
    (world.after act).fleet.hasOwn index = world.fleet.hasOwn index := by
  cases about : world.deed? act with
  | none => rw [after, about]; rfl
  | some doing =>
      rcases doing with ⟨member, deed⟩
      cases found : world.fleet.session? member with
      | none =>
          rw [after, about]
          simp only [found]
      | some acting =>
          rw [after_of_deed? about found]
          exact hasOwn_putSession _ _ _ _

theorem hasOwn_afterAll (world : World) (acts : List Act) (index : Nat) :
    (world.afterAll acts).fleet.hasOwn index = world.fleet.hasOwn index := by
  induction acts using List.reverseRecOn with
  | nil => rfl
  | append_singleton acts act ih => rw [afterAll_concat, hasOwn_after, ih]

theorem sharesBackend_afterAll (world : World) (acts : List Act) (index other : Nat) :
    (world.afterAll acts).fleet.sharesBackend index other =
      world.fleet.sharesBackend index other := by
  rw [Fleet.sharesBackend, Fleet.sharesBackend, hasOwn_afterAll, hasOwn_afterAll]

/-- A deployment ends only through a request. -/
theorem eq_ask_of_removed? {deed : Deed} {app : AppName}
    (about : world.deed? act = some (index, deed)) (removes : deed.removed? = some app) :
    ∃ request, act = .ask index request ∧ request.removed? = some app := by
  cases deed with
  | answer request => exact ⟨request, eq_ask_of_deed? about, removes⟩
  | _ => cases removes

/-- Nobody who works on the same backend as a member asks for the removal of an application. -/
def Unasked (world : World) (index : Nat) (app : AppName) (acts : List Act) : Prop :=
  ∀ member request, .ask member request ∈ acts →
    world.fleet.sharesBackend member index = true → request.removed? ≠ some app

theorem Shift.isActive (shift : world.Shift act index session next)
    (unasked : world.Unasked index key.app [act])
    (active : session.backend.isActive key = true) : next.backend.isActive key = true := by
  have kept : ∀ {member : Nat} {deed : Deed}, world.deed? act = some (member, deed) →
      world.fleet.sharesBackend member index = true → deed.removed? ≠ some key.app := by
    intro member deed about shared removes
    rcases eq_ask_of_removed? about removes with ⟨request, rfl, removed⟩
    exact unasked member request List.mem_cons_self shared removed
  cases shift with
  | acts about =>
      exact session.isActive_afterDeed (kept about (Fleet.sharesBackend_self _ _)) active
  | @follows member deed other about different found shared same =>
      rw [same] at active
      exact other.isActive_afterDeed
        (kept about (Fleet.sharesBackend_of_not_hasOwn shared.1 shared.2)) active
  | passes now => exact active

/-- A deployment lasts until somebody asks for the removal of the application. -/
theorem isActive_afterAll (unasked : world.Unasked index key.app acts)
    (found : world.fleet.session? index = some session)
    (active : session.backend.isActive key = true)
    (later : (world.afterAll acts).fleet.session? index = some next) :
    next.backend.isActive key = true := by
  refine afterAll_induction (motive := fun acts next => world.Unasked index key.app acts →
    next.backend.isActive key = true) ?_ ?_ later unasked
  · intro same foundSame _
    obtain rfl := Option.some.inj (found.symm.trans foundSame)
    exact active
  · intro acts act middle next _ ih shift unasked
    have before : world.Unasked index key.app acts := fun member request asked =>
      unasked member request (List.mem_append_left _ asked)
    refine shift.isActive ?_ (ih before)
    intro member request asked shared
    rw [sharesBackend_afterAll] at shared
    exact unasked member request (List.mem_append_right _ asked) shared

end World

end Reconciler
