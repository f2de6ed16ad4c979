import Reconciler.Proofs.Engine.Paces
import Reconciler.Proofs.Fleet.Loops
import Reconciler.Proofs.Fleet.Rosters

/-!
# Actors that are off the roster

An actor is told to end when it has been taken off the roster, and not before. So no actor of the
roster ends. Maintenance loops deliver no triggers but those.
-/

namespace Reconciler

/-- Whether a trigger has an actor end. -/
def Trigger.isShutdown (trigger : Trigger) : Bool :=
  trigger == .shutdown

/-- An actor that is not about to end, and has not been told to. -/
structure Actor.IsLasting (actor : Actor) : Prop where
  lasting : actor.isEnding = false
  untold : .shutdown ∉ actor.queue

/-- An actor that has taken triggers is about to end only if it was before, or one told it to. -/
theorem Actor.IsLasting.of_taken {former actor : Actor} {taken : List Trigger}
    (lasting : former.IsLasting) (queued : former.queue = taken ++ actor.queue)
    (ends : actor.isEnding = true ↔ former.isEnding = true ∨ .shutdown ∈ taken) :
    actor.IsLasting := by
  have untold := lasting.untold
  rw [queued, List.mem_append, not_or] at untold
  refine ⟨Bool.eq_false_of_not_eq_true fun ending => ?_, untold.2⟩
  rcases ends.mp ending with before | told
  · cases lasting.lasting.symm.trans before
  · exact untold.1 told

theorem Actor.SameSeat.isLasting {former actor : Actor} (seat : former.SameSeat actor)
    (lasting : former.IsLasting) : actor.IsLasting := by
  rcases seat.taken with ⟨taken, queued, ends⟩
  exact lasting.of_taken queued ends

theorem Actor.Takes.isLasting {former actor : Actor} {taken : List Trigger}
    (takes : former.Takes taken actor) (lasting : former.IsLasting) : actor.IsLasting :=
  lasting.of_taken takes.queue takes.isEnding

/-- An actor with a number has been started, and is not on the roster any more. -/
def Engine.IsAside (engine : Engine) (number : Nat) : Prop :=
  number < engine.actorsStarted ∧
    ∀ key actor, engine.roster.find? key = some actor → actor.number ≠ number

/-- A roster of which no actor has a number leaves none when its actors have the same numbers. -/
theorem Engine.IsAside.of_sameNumbers {engine next : Engine} {number : Nat}
    (aside : engine.IsAside number) (same : engine.SameNumbers next) : next.IsAside number := by
  refine ⟨same.started ▸ aside.1, fun key later present isNumber => ?_⟩
  rcases same.roster key later present with ⟨former, found, isSame⟩
  exact aside.2 key former found (isSame.symm.trans isNumber)

namespace Session

variable {deed : Deed} {doing : Option Chore} {session next : Session} {number : Nat}
  {cares : Trigger → Bool}

/-- If a chore is to deliver one of some triggers, the actor that it is for is off the roster. -/
def Spares (cares : Trigger → Bool) (session : Session) (chore : Chore) : Prop :=
  ∀ number trigger isWaiting, chore = .deliver number trigger isWaiting → cares trigger = true →
    session.engine.IsAside number

theorem Spares.mono {fewer : Trigger → Bool} {chore : Chore} (spares : session.Spares cares chore)
    (among : ∀ trigger, fewer trigger = true → cares trigger = true) :
    session.Spares fewer chore :=
  fun number trigger isWaiting same cared =>
    spares number trigger isWaiting same (among trigger cared)

theorem spares_of_receiver?_eq_none {chore : Chore} (nobody : chore.receiver? = none) :
    session.Spares cares chore := by
  rintro number trigger isWaiting rfl
  cases nobody

theorem Serves.isAside {offered : List Command} {orders : List Order}
    (serves : session.Serves deed doing offered orders next)
    (aside : session.engine.IsAside number) : next.engine.IsAside number := by
  refine ⟨aside.1.trans_le serves.actorsStarted, fun key actor present same => ?_⟩
  cases serves.recalls present with
  | stays found hears => exact aside.2 key _ found (hears.number.symm.trans same)
  | starts isNew => exact Nat.not_lt.mpr isNew (same ▸ aside.1)

/-- The actor of an application is off the roster when it has been taken off it. -/
theorem isAside_takeOff (numbered : session.engine.Numbered) {key : ActorKey} {actor : Actor}
    (present : session.engine.roster.find? key = some actor) :
    (session.takeOff key).1.engine.IsAside actor.number := by
  refine ⟨?_, fun other another still same => ?_⟩
  · rw [actorsStarted_takeOff]
    exact numbered.lt_of_find? present
  · rw [find?_takeOff] at still
    split at still
    · cases still
    · rename_i elsewhere
      exact elsewhere (numbered.unique other key another actor still present same)

theorem spares_takeOff (numbered : session.engine.Numbered) (key : ActorKey) :
    ∀ chore ∈ (session.takeOff key).2, (session.takeOff key).1.Spares cares chore := by
  intro chore member
  cases found : session.engine.roster.find? key with
  | none =>
      rw [takeOff, found] at member
      cases member
  | some actor =>
      have aside := isAside_takeOff numbered found
      have tells : (session.takeOff key).2 =
          [.deliver actor.number .shutdown false, .awaitEnd actor.number] := by
        rw [takeOff, found]
      rw [tells] at member
      rcases List.mem_pair.mp member with rfl | rfl
      · intro number trigger isWaiting same _
        cases same
        exact aside
      · exact spares_of_receiver?_eq_none rfl

/-- Only what delivers a trigger itself, or stops an actor, leads to a delivery. -/
theorem receiver?_of_perform {chore : Chore} {more : List Chore} (nobody : chore.receiver? = none)
    (noStop : ∀ key, chore ≠ .stop key) (done : (session.perform chore).2 = .ok more) :
    ∀ other ∈ more, other.receiver? = none := by
  cases chore with
  | deliver number trigger isWaiting => cases nobody
  | stop key => exact absurd rfl (noStop key)
  | stopAll =>
      obtain rfl := Except.ok.inj done
      intro other member
      rcases List.mem_map.mp member with ⟨key, _, rfl⟩
      rfl
  | release keys owned changed =>
      have same : (session.release owned changed keys).2 = more := Except.ok.inj done
      rw [← same]
      cases keys with
      | nil => simp [release]
      | cons key keys =>
          simp only [release]
          split <;> simp [Chore.receiver?]
  | resend start report keys =>
      cases keys with
      | nil =>
          cases done
          simp
      | cons key keys =>
          have same : (session.resendFirst start report key keys).2 = more := Except.ok.inj done
          rw [← same]
          simp only [resendFirst]
          split
          · simp [Chore.receiver?]
          · split <;> simp [Chore.receiver?]
  | offer start report command keys =>
      rw [perform] at done
      split at done
      · cases done
        simp [Chore.receiver?]
      · cases done
  | _ =>
      cases done
      simp

/-- What a chore spares, the chores in its place spare as well. -/
theorem spares_perform (numbered : session.engine.Numbered) {chore : Chore} {more : List Chore}
    (spares : session.Spares cares chore) (done : (session.perform chore).2 = .ok more) :
    ∀ other ∈ more, (session.perform chore).1.Spares cares other := by
  cases chore with
  | deliver number trigger isWaiting =>
      have served : session.Serves (.turnStore none) _ _ _
        (session.perform (.deliver number trigger isWaiting)).1 := serves_perform _
      have same : (session.deliver number trigger isWaiting).2 = more := Except.ok.inj done
      intro other member
      rcases session.chores_deliver number trigger isWaiting with left | left
      · rw [← same, left] at member
        cases member
      · rw [← same, left] at member
        obtain rfl := List.mem_singleton.mp member
        intro receiver order waits again cared
        cases again
        exact served.isAside (spares number trigger isWaiting rfl cared)
  | stop key =>
      have same : (session.takeOff key).2 = more := Except.ok.inj done
      rw [← same]
      exact spares_takeOff numbered key
  | _ =>
      intro other member
      exact spares_of_receiver?_eq_none
        (receiver?_of_perform rfl (fun key same => by cases same) done other member)

theorem enduring_spares (cares : Trigger → Bool) :
    Chore.Enduring (fun session => session.engine.Numbered) (Spares cares) where
  release _ _ _ _ := spares_of_receiver?_eq_none rfl
  wakeAll _ := spares_of_receiver?_eq_none rfl
  resend _ _ _ _ := spares_of_receiver?_eq_none rfl
  serves serves spares number trigger isWaiting same cared :=
    serves.isAside (spares number trigger isWaiting same cared)
  performs {session later chore more} numbered spares done := by
    have isNext : (session.perform chore).1 = later := by rw [done]
    subst isNext
    exact spares_perform numbered spares (by rw [done])

/-- What an errand spares, it spares as well when its member has gone on with it. -/
theorem spares_goOn (numbered : session.engine.Numbered) {chore : Chore} {rest : List Chore}
    (spares : ∀ other ∈ chore :: rest, session.Spares cares other) (member : Nat) :
    ∀ other ∈ (Errand.goOn ⟨member, chore :: rest⟩
        (session.afterDeed (.perform chore)).2).chores,
      (session.afterDeed (.perform chore)).1.Spares cares other := by
  rw [afterDeed]
  split
  · have served : session.Serves (.turnStore none) _ _ _ (session.perform chore).1 :=
      serves_perform chore
    cases performed : (session.perform chore).2 with
    | error problem =>
        intro other isChore
        cases isChore
    | ok more =>
        refine List.forall_mem_append.mpr ⟨?_, fun other isRest => ?_⟩
        · exact spares_perform numbered (spares chore List.mem_cons_self) performed
        · exact (enduring_spares cares).serves served (spares other (List.mem_cons_of_mem _ isRest))
  · exact spares

/-- Nobody of the roster is about to end, as long as only others are told to. -/
theorem Serves.isLasting {offered : List Command} {orders : List Order}
    (serves : session.Serves deed doing offered orders next)
    (lasting : ∀ key actor, session.engine.roster.find? key = some actor → actor.IsLasting)
    (spares : ∀ chore, doing = some chore → session.Spares Trigger.isShutdown chore)
    {key : ActorKey} {actor : Actor} (present : next.engine.roster.find? key = some actor) :
    actor.IsLasting := by
  have unbrought : ¬Brings doing actor.number .shutdown := by
    rintro (background | ⟨isWaiting, does⟩)
    · cases background
    · have aside := spares _ does actor.number .shutdown isWaiting rfl rfl
      exact (serves.isAside aside).2 key actor present rfl
  cases serves.recalls present with
  | stays found hears queue callers =>
      have before := lasting key _ found
      refine ⟨hears.isEnding.trans before.lasting, fun told => ?_⟩
      exact (queue .shutdown told).elim before.untold unbrought
  | starts isNew isKey fresh queue callers =>
      exact ⟨fresh, fun told => unbrought (queue .shutdown told)⟩

end Session

/-- What is left of a request delivers orders, if it delivers anything. -/
theorem Chore.ordinary_isOrder : Ordinary fun chores =>
    ∀ number trigger isWaiting, .deliver number trigger isWaiting ∈ chores →
      trigger.isOrder = true where
  nothing := by simp
  order number cause ordered := by simp [ordered]
  announced number cause event ordered := by simp [ordered]
  released := by simp
  resynced := by simp
  started := by simp
  swept := by simp
  stopped maintenance := by cases maintenance <;> simp

namespace World

variable {world : World} {act : Act} {index : Nat} {deed : Deed} {session : Session}

/-- Members are asked to deliver nothing but orders to actors of their rosters. -/
def Spares (world : World) (index : Nat) (session : Session) : Prop :=
  ∀ errand ∈ world.errands, errand.member = index →
    ∀ chore ∈ errand.chores, session.Spares (fun trigger => !trigger.isOrder) chore

theorem Spares.after (spares : world.Spares index session)
    (about : world.deed? act = some (index, deed))
    (found : world.fleet.session? index = some session)
    (still : ∀ number, deed ≠ .moveActor number) (numbered : session.engine.Numbered) :
    (world.after act).Spares index (session.afterDeed deed).1 := by
  rcases session.serves_afterDeed still with ⟨orders, served, _⟩
  have enduring := Session.enduring_spares fun trigger => !trigger.isOrder
  have kept : ∀ errand ∈ world.errands, errand.member = index → ∀ chore ∈ errand.chores,
      (session.afterDeed deed).1.Spares (fun trigger => !trigger.isOrder) chore :=
    fun errand member own chore isChore =>
      enduring.serves served (spares errand member own chore isChore)
  rw [Spares, errands_after about found]
  cases act with
  | ask member request =>
      cases about
      intro errand member own
      rcases List.mem_append.mp member with former | isNew
      · exact kept errand former own
      · rw [List.mem_singleton.mp isNew]
        rintro chore isChore number trigger isWaiting rfl cared
        rcases ran : request.call.run session with ⟨problem | chores, later⟩
        · simp only [Session.afterDeed, ran] at isChore
          cases isChore
        · simp only [Session.afterDeed, ran] at isChore
          have ordered := Call.answers_request Chore.ordinary_isOrder request session chores later
            ran number trigger isWaiting isChore
          simp [ordered] at cared
  | carryOn number =>
      rcases exists_errand_of_deed? about with ⟨chore, rest, here, rfl⟩
      intro errand member own
      rcases (mem_errandsAfter_carryOn here).mp member with rfl | ⟨position, _, elsewhere⟩
      · exact Session.spares_goOn numbered (spares _ (List.mem_of_getElem? here) rfl) index
      · exact kept errand (List.mem_of_getElem? elsewhere) own
  | _ => exact kept

end World

end Reconciler
