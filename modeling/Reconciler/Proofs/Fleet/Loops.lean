import Reconciler.Proofs.Fleet.Answers

/-!
# What maintenance loops have to do

Maintenance loops sweep, reap hosts and resync. What holds of the chores that they take upon
themselves, and of those that come in the place of others, holds of all that they have to do. So
nothing of it is an order for an actor.
-/

namespace Reconciler

/--
A property that the chores of maintenance loops do not lose: those that they take upon themselves
have it, services do not take it away, and what comes in the place of a chore has it as well.
-/
structure Chore.Enduring (fits : Session → Prop) (holds : Session → Chore → Prop) : Prop where
  release : ∀ session lost owned changed, holds session (.release lost owned changed)
  wakeAll : ∀ session, holds session .wakeAll
  resend : ∀ session start report keys, holds session (.resend start report keys)
  serves : ∀ {deed : Deed} {doing : Option Chore} {session next : Session}
    {offered : List Command} {orders : List Order} {chore : Chore},
    session.Serves deed doing offered orders next → holds session chore → holds next chore
  performs : ∀ {session later : Session} {chore : Chore} {more : List Chore}, fits session →
    holds session chore → session.perform chore = (later, .ok more) →
      ∀ other ∈ more, holds later other

namespace Session

variable {deed : Deed} {doing : Option Chore} {session next : Session}

theorem Service.loops {offered : List Command} {orders : List Order}
    (service : Service deed doing session offered orders next)
    (still : deed.tendsLoops doing = false) : next.engine.loops = session.engine.loops := by
  cases service with
  | dispatches dispatches => exact dispatches.crew.loops
  | arranges assignment partition sink loops loopsStarted maintenance kept =>
      rcases kept with tends | same
      · cases still.symm.trans tends
      · exact same
  | @hires key absent intent active => rw [Engine.ensureActor, absent]
  | @delivers number trigger isWaiting _ =>
      rcases session.exists_deliver_eq number trigger isWaiting with ⟨roster, leaving, same⟩
      rw [same]
  | takesOff key =>
      rcases session.exists_takeOff_eq key with ⟨roster, leaving, same⟩
      rw [same]
  | _ => rfl

theorem Serves.loops {offered : List Command} {orders : List Order}
    (serves : session.Serves deed doing offered orders next)
    (still : deed.tendsLoops doing = false) : next.engine.loops = session.engine.loops := by
  induction serves with
  | refl _ => rfl
  | head service _ ih => exact ih.trans (service.loops still)

theorem Conduct.loops {actor : Actor} {offered : List Command}
    (conduct : session.Conduct actor offered next) :
    next.engine.loops = session.engine.loops := by
  rcases conduct.exists_eq with ⟨middle, _, _, _, dispatches, rfl⟩
  exact dispatches.crew.loops

/-- A chore leaves the loops as they are, but for a new one with nothing to do yet. -/
theorem mem_loops_perform {chore : Chore} {loop : MaintenanceLoop}
    (member : loop ∈ (session.perform chore).1.engine.loops) :
    loop ∈ session.engine.loops ∨ loop.chores = [] := by
  by_cases starts : chore = .startLoop
  · subst starts
    rcases List.mem_append.mp member with former | isNew
    · exact Or.inl former
    · rw [List.mem_singleton.mp isNew]
      exact Or.inr rfl
  · -- Any deed will do here that does not tend to the loops itself.
    have served : session.Serves (.turnStore none) (some chore) _ _ _ := serves_perform chore
    have still : (Deed.turnStore none).tendsLoops (some chore) = false := by
      simpa [Deed.tendsLoops] using starts
    rw [served.loops still] at member
    exact Or.inl member

/-- All that the maintenance loops have to do has a property. -/
def LoopsHold (holds : Session → Chore → Prop) (session : Session) : Prop :=
  ∀ loop ∈ session.engine.loops, ∀ chore ∈ loop.chores, holds session chore

/-- A chore that a loop is at has what the chores of all loops have. -/
theorem LoopsHold.of_chore? {holds : Session → Chore → Prop} (held : session.LoopsHold holds)
    {number : Nat} {chore : Chore} (does : session.chore? (.moveLoop number) = some chore) :
    holds session chore := by
  rcases Option.bind_eq_some_iff.mp does with ⟨loop, found, isFirst⟩
  exact held loop (List.mem_of_find?_eq_some found) chore (List.mem_of_head? isFirst)

section Enduring

variable {fits : Session → Prop} {holds : Session → Chore → Prop}
  (enduring : Chore.Enduring fits holds)
include enduring

theorem LoopsHold.of_serves {offered : List Command} {orders : List Order}
    (held : session.LoopsHold holds) (serves : session.Serves deed doing offered orders next)
    (former : ∀ loop ∈ next.engine.loops, loop ∈ session.engine.loops ∨ loop.chores = []) :
    next.LoopsHold holds := by
  intro loop member chore isChore
  rcases former loop member with there | isNew
  · exact enduring.serves serves (held loop there chore isChore)
  · rw [isNew] at isChore
    cases isChore

theorem LoopsHold.of_still {offered : List Command} {orders : List Order}
    (held : session.LoopsHold holds) (serves : session.Serves deed doing offered orders next)
    (still : deed.tendsLoops doing = false) : next.LoopsHold holds := by
  refine held.of_serves enduring serves fun loop member => Or.inl ?_
  rwa [serves.loops still] at member

theorem LoopsHold.putLoop (held : session.LoopsHold holds) {loop : MaintenanceLoop}
    (fit : ∀ chore ∈ loop.chores, holds session chore) :
    (session.putLoop loop).LoopsHold holds := by
  have served : session.Serves (.moveLoop loop.number) none [] [] (session.putLoop loop) :=
    serves_putLoop loop rfl
  intro other member chore isChore
  refine enduring.serves served ?_
  rcases List.mem_map.mp member with ⟨former, formerMember, rfl⟩
  split at isChore
  · exact fit chore isChore
  · exact held former formerMember chore isChore

theorem LoopsHold.endLoop (held : session.LoopsHold holds) (loop : MaintenanceLoop) :
    (session.endLoop loop).LoopsHold holds := by
  have served : session.Serves (.moveLoop loop.number) none [] [] (session.endLoop loop) :=
    serves_endLoop loop rfl
  exact held.of_serves enduring served fun _ member => Or.inl (List.mem_of_mem_filter member)

theorem LoopsHold.undertake (held : session.LoopsHold holds) {loop : MaintenanceLoop}
    (idle : loop.chores = []) {call : Call (Pending Unit)}
    (serves : call.Serves (.turnStore none) none (fun _ => []) session)
    (answers : call.Answers fun pending => ∀ later, ∀ chore ∈ pending.chores, holds later chore) :
    (session.undertake loop call).LoopsHold holds := by
  have kept := held.of_still enduring serves rfl
  rw [Session.undertake]
  rcases ran : call.run session with ⟨problem | pending, later⟩
  · rw [ran] at kept
    refine kept.putLoop enduring fun chore isChore => ?_
    rw [idle] at isChore
    cases isChore
  · rw [ran] at kept
    exact kept.putLoop enduring (answers session pending later ran later)

theorem LoopsHold.perform (held : session.LoopsHold holds) (chore : Chore) :
    (session.perform chore).1.LoopsHold holds := by
  have served : session.Serves (.turnStore none) (some chore) _ _ _ := serves_perform chore
  exact held.of_serves enduring served fun _ member => mem_loops_perform member

theorem LoopsHold.beginDuty (held : session.LoopsHold holds) {loop : MaintenanceLoop}
    (idle : loop.chores = []) (timers : Timers) :
    (session.beginDuty loop timers).LoopsHold holds := by
  have nothing : ∀ {chores : List Chore} {session : Session}, chores = [] →
      ∀ chore ∈ chores, holds session chore := by
    rintro chores session rfl chore member
    cases member
  rw [Session.beginDuty]
  simp only
  split
  · refine held.undertake enduring ?_ (Call.serves_reapCommands fun _ _ _ => rfl)
      (Call.answers_reapCommands fun start report keys later => ?_)
    · exact idle
    · exact List.forall_mem_singleton.mpr (enduring.resend later start report keys)
  · split
    · have served : session.Serves (.turnStore none) none _ _ _ :=
        serves_reapHosts session.now.wall
      have kept := held.of_still enduring served rfl
      rcases answered : session.reapHosts session.now.wall with ⟨next, _ | count⟩
      · rw [answered] at kept
        exact kept.endLoop enduring loop
      · rw [answered] at kept
        exact kept.putLoop enduring (nothing idle)
    · split
      · refine held.undertake enduring ?_ (Call.serves_resync fun _ _ _ => rfl)
          (Call.answers_resync fun lost owned changed later => ?_)
        · exact idle
        · exact List.forall_mem_cons.mpr ⟨enduring.release later lost owned changed,
            List.forall_mem_singleton.mpr (enduring.wakeAll later)⟩
      · split
        · exact held.endLoop enduring loop
        · exact held

theorem LoopsHold.moveLoop (fit : fits session) (held : session.LoopsHold holds)
    {loop : MaintenanceLoop} (member : loop ∈ session.engine.loops) :
    (session.moveLoop loop).LoopsHold holds := by
  have own := held loop member
  rw [Session.moveLoop]
  split
  · rename_i chore chores loopChores
    rw [loopChores, List.forall_mem_cons] at own
    split
    · have served : session.Serves (.turnStore none) (some chore) _ _ _ := serves_perform chore
      have kept := held.perform enduring chore
      rw [moveOn]
      rcases done : session.perform chore with ⟨later, problem | more⟩
      · rw [done] at kept
        exact kept.putLoop enduring fun other isChore => by cases isChore
      · rw [done] at kept served
        refine kept.putLoop enduring (List.forall_mem_append.mpr ⟨?_, ?_⟩)
        · exact enduring.performs fit own.1 done
        · exact fun other rest => enduring.serves served (own.2 other rest)
    · exact held
  · exact held.putLoop enduring own
  · rename_i timers loopChores someTimers
    exact held.beginDuty enduring loopChores timers

/-- No deed takes the property away from what maintenance loops have to do. -/
theorem LoopsHold.afterDeed (fit : fits session) (held : session.LoopsHold holds)
    (still : ∀ number, deed ≠ .moveActor number) :
    (session.afterDeed deed).1.LoopsHold holds := by
  rcases session.serves_afterDeed still with ⟨orders, served, _⟩
  cases deed with
  | answer request =>
      by_cases ends : request = .shutdown
      · subst ends
        intro loop member chore isChore
        rcases List.mem_map.mp member with ⟨former, formerMember, rfl⟩
        exact enduring.serves served (held former formerMember chore isChore)
      · refine held.of_still enduring served ?_
        unfold Deed.tendsLoops
        split
        · rename_i same
          cases same
          exact absurd rfl ends
        · rename_i same
          cases same
        · rfl
  | perform chore =>
      rw [Session.afterDeed]
      split
      · exact held.perform enduring chore
      · exact held
  | moveActor number => exact absurd rfl (still number)
  | moveLoop number =>
      rw [Session.afterDeed]
      split
      · rename_i loop found
        exact held.moveLoop enduring fit (List.mem_of_find?_eq_some found)
      · exact held
  | turnSink failure delay => exact held.of_still enduring served rfl
  | turnStore outage => exact held.of_still enduring served rfl

end Enduring

/-- The maintenance loops have no orders to deliver. -/
def LoopsOrderless (session : Session) : Prop :=
  ∀ loop ∈ session.engine.loops, Chore.orders loop.chores = []

/-- That a chore is no order is never lost, since no chore of another kind leads to an order. -/
theorem enduring_unordered :
    Chore.Enduring (fun _ => True) fun _ chore => chore.order? = none where
  release _ _ _ _ := rfl
  wakeAll _ := rfl
  resend _ _ _ _ := rfl
  serves _ unordered := unordered
  performs {session _ _ _} _ unordered done := by
    have left := session.ordersLeft_perform unordered
    rw [done] at left
    exact List.filterMap_eq_nil_iff.mp left

theorem loopsOrderless_iff :
    session.LoopsOrderless ↔ session.LoopsHold fun _ chore => chore.order? = none :=
  forall₂_congr fun _ _ => List.filterMap_eq_nil_iff

/-- No deed gives maintenance loops orders to deliver. -/
theorem LoopsOrderless.afterDeed (orderless : session.LoopsOrderless) (deed : Deed) :
    (session.afterDeed deed).1.LoopsOrderless := by
  by_cases moves : ∃ number, deed = .moveActor number
  · rcases moves with ⟨number, rfl⟩
    rw [Session.afterDeed]
    split
    · rename_i actor _
      rw [LoopsOrderless, (session.conduct_moveActor actor).loops]
      exact orderless
    · exact orderless
  · exact loopsOrderless_iff.mpr ((loopsOrderless_iff.mp orderless).afterDeed enduring_unordered
      trivial (not_exists.mp moves))

end Session

end Reconciler
