import Reconciler.Proofs.Fleet.Asides
import Reconciler.Proofs.Fleet.SlowMotion

/-!
# Who waits in line

A caller who finds no room in the queue of an actor waits in line, and has a place as soon as the
actor has taken a trigger. As long as an actor is on the roster, only errands wait in line for it:
loops deliver triggers to no actors but those that they have taken off the roster.
-/

namespace Reconciler

namespace Session

variable {deed : Deed} {doing : Option Chore} {session next : Session}

/-- Of the actors of a roster, each has at most as many callers as there are in its line. -/
def Lined (session : Session) (line : Nat → Nat) : Prop :=
  ∀ key actor, session.engine.roster.find? key = some actor → actor.callers ≤ line actor.number

/-- Services leave callers as they are, but for those of an actor that a trigger is delivered to. -/
theorem Serves.callers_le {offered : List Command} {orders : List Order} {line : Nat → Nat}
    (serves : session.Serves deed doing offered orders next) (lined : session.Lined line)
    {key : ActorKey} {actor : Actor} (present : next.engine.roster.find? key = some actor)
    (spared : doing.bind Chore.receiver? ≠ some actor.number) :
    actor.callers ≤ line actor.number := by
  cases serves.recalls present with
  | stays found hears queue callers =>
      rw [callers spared, hears.number]
      exact lined key _ found
  | starts isNew isKey lasting queue callers =>
      rw [callers spared]
      exact Nat.zero_le _

end Session

/-- An errand is about to put a trigger into the queue of an actor in whose line it has waited. -/
def Errand.isInLine (index number : Nat) : Errand → Bool
  | ⟨member, .deliver other _ true :: _⟩ => member == index && other == number
  | _ => false

theorem Errand.receiver?_of_isInLine {index number member : Nat} {chore : Chore}
    {rest : List Chore} (inLine : isInLine index number ⟨member, chore :: rest⟩ = true) :
    member = index ∧ chore.receiver? = some number := by
  rw [isInLine.eq_def] at inLine
  split at inLine
  · rename_i same
    cases same
    simpa [Chore.receiver?] using inLine
  · cases inLine

namespace World

variable {world : World} {act : Act} {index number : Nat} {deed : Deed} {session : Session}

/-- How many callers wait in the line of an actor of a member. -/
def inLine (world : World) (index number : Nat) : Nat :=
  world.errands.countP fun errand => errand.isInLine index number

theorem exists_of_inLine_pos (waits : 0 < world.inLine index number) :
    ∃ trigger rest, ⟨index, .deliver number trigger true :: rest⟩ ∈ world.errands := by
  rcases List.countP_pos_iff.mp waits with ⟨errand, member, inLine⟩
  rw [Errand.isInLine.eq_def] at inLine
  split at inLine
  · rename_i trigger rest
    simp only [Bool.and_eq_true, beq_iff_eq] at inLine
    exact ⟨trigger, rest, by rwa [← inLine.1, ← inLine.2]⟩
  · cases inLine

/-- Only the errand that a member goes on with may come to a line or leave one. -/
theorem countP_errandsAfter_carryOn {errand : Nat} {former : Errand}
    (here : world.errands[errand]? = some former) (result : Except ControlError (List Chore))
    (counts : Errand → Bool) :
    (world.errandsAfter result (.carryOn errand)).countP counts + (counts former).toNat =
      world.errands.countP counts + (counts (former.goOn result)).toNat := by
  have inside := (List.getElem?_eq_some_iff.mp here).1
  rcases List.exists_of_modify (fun errand => errand.goOn result) inside with
    ⟨before, other, later, split, length, modified⟩
  have there : world.errands[errand]? = some other := by
    rw [split, ← length]
    simp
  obtain rfl := Option.some.inj (there.symm.trans here)
  rw [errandsAfter, modified, split, List.countP_append, List.countP_append, List.countP_cons,
    List.countP_cons]
  cases counts other <;> cases counts (other.goOn result) <;> simp <;> omega

/-- Nobody leaves the line of an actor but by an errand that its member goes on with. -/
theorem le_inLine_after (still : ∀ chore, world.deed? act ≠ some (index, .perform chore)) :
    world.inLine index number ≤ (world.after act).inLine index number := by
  cases about : world.deed? act with
  | none =>
      rw [World.after, about]
      exact Nat.le_refl _
  | some doing =>
      rcases doing with ⟨member, deed⟩
      cases found : world.fleet.session? member with
      | none =>
          rw [World.after, about]
          simp only [found]
          exact Nat.le_refl _
      | some acting =>
          rw [inLine, inLine, errands_after about found]
          cases act with
          | ask other request =>
              rw [errandsAfter, List.countP_append]
              exact Nat.le_add_right _ _
          | carryOn errand =>
              rcases exists_errand_of_deed? about with ⟨chore, rest, here, rfl⟩
              have counted := countP_errandsAfter_carryOn here (acting.afterDeed (.perform chore)).2
                fun errand => errand.isInLine index number
              have elsewhere : Errand.isInLine index number ⟨member, chore :: rest⟩ = false := by
                refine Bool.eq_false_of_not_eq_true fun inLine => ?_
                rcases Errand.receiver?_of_isInLine inLine with ⟨rfl, _⟩
                exact still chore about
              rw [elsewhere] at counted
              exact Nat.le.intro counted.symm
          | _ => exact Nat.le_refl _

/-- What a delivery does to the callers of its actor, it does to the line of the actor as well. -/
theorem callers_deliver (index : Nat) (rest : List Chore) {trigger : Trigger} {isWaiting : Bool}
    {key : ActorKey} {actor : Actor}
    (present : (session.afterDeed (.perform (.deliver actor.number trigger isWaiting))
      ).1.engine.roster.find? key = some actor) :
    ∃ former, session.engine.roster.find? key = some former ∧ former.number = actor.number ∧
      actor.callers ≤ former.callers +
        (Errand.isInLine index actor.number
          (Errand.goOn ⟨index, .deliver actor.number trigger isWaiting :: rest⟩
            (session.afterDeed (.perform (.deliver actor.number trigger isWaiting))).2)).toNat -
        isWaiting.toNat := by
  rw [Session.afterDeed] at present ⊢
  split at present
  · rename_i can
    rw [if_pos can]
    change (session.deliver actor.number trigger isWaiting).1.engine.roster.find? key = some actor
      at present
    rcases session.deliver_cases actor.number trigger isWaiting with
      ⟨absent, same⟩ | ⟨update, hears, _, same, counts⟩
    · rw [same] at present
      exact absurd absent (Engine.actor?_ne_none_of_find? present)
    · rw [same, Engine.find?_updateActor, Option.map_eq_some_iff] at present
      rcases present with ⟨former, formerFound, isActor⟩
      refine ⟨former, formerFound, ?_⟩
      split at isActor
      · rename_i isNumber
        refine ⟨isNumber, ?_⟩
        rw [← congrArg Actor.callers isActor]
        rcases counts with ⟨waits, counts⟩ | ⟨isNew, counts⟩ | ⟨isNew, counts, left⟩
        · rw [counts, waits]
          exact Nat.sub_le_sub_right (Nat.le_add_right _ _) 1
        · rw [counts, isNew]
          exact Nat.le_add_right _ _
        · rw [counts, isNew]
          refine Nat.add_le_add_left ?_ _
          have goesOn : (session.perform (.deliver actor.number trigger false)).2 =
              .ok [.deliver actor.number trigger true] := by
            rw [isNew] at left
            exact congrArg Except.ok left
          rw [goesOn]
          simp [Errand.goOn, Errand.isInLine]
      · rename_i elsewhere
        exact absurd (congrArg Actor.number isActor) elsewhere
  · rename_i cannot
    rw [if_neg cannot]
    refine ⟨actor, present, rfl, ?_⟩
    cases isWaiting with
    | false => exact Nat.le_add_right _ _
    | true => simp [Errand.goOn, Errand.isInLine]

/-- A caller is in line for as long as the actor counts it among its callers. -/
theorem lined_carryOn {errand : Nat} {chore : Chore} {rest : List Chore}
    (here : world.errands[errand]? = some ⟨index, chore :: rest⟩)
    (about : world.deed? (.carryOn errand) = some (index, .perform chore))
    (found : world.fleet.session? index = some session)
    (lined : session.Lined (world.inLine index)) :
    (session.afterDeed (.perform chore)).1.Lined
      ((world.after (.carryOn errand)).inLine index) := by
  intro key actor present
  have counted := countP_errandsAfter_carryOn here (session.afterDeed (.perform chore)).2
    fun errand => errand.isInLine index actor.number
  have after : (world.after (.carryOn errand)).inLine index actor.number =
      (world.errandsAfter (session.afterDeed (.perform chore)).2 (.carryOn errand)).countP
        fun errand => errand.isInLine index actor.number := by
    rw [inLine, errands_after about found]
  have before : world.inLine index actor.number =
    world.errands.countP fun errand => errand.isInLine index actor.number := rfl
  rw [← after, ← before] at counted
  by_cases receives : chore.receiver? = some actor.number
  · cases chore with
    | deliver other trigger isWaiting =>
        obtain rfl := Option.some.inj receives
        rcases callers_deliver index rest present with
          ⟨former, formerFound, same, bound⟩
        have formerBound := lined key former formerFound
        have waits : Errand.isInLine index actor.number
            ⟨index, .deliver actor.number trigger isWaiting :: rest⟩ = isWaiting := by
          cases isWaiting <;> simp [Errand.isInLine]
        rw [same] at formerBound
        rw [waits] at counted
        omega
    | _ => cases receives
  · have still : ∀ number, Deed.perform chore ≠ .moveActor number :=
      fun number same => by cases same
    rcases session.serves_afterDeed still with ⟨orders, served, _⟩
    have bound := served.callers_le lined present receives
    have elsewhere : Errand.isInLine index actor.number ⟨index, chore :: rest⟩ = false :=
      Bool.eq_false_of_not_eq_true fun inLine =>
        receives (Errand.receiver?_of_isInLine inLine).2
    rw [elsewhere] at counted
    exact bound.trans (Nat.le.intro counted.symm)

/-- As long as loops deliver to no actors of the roster, its actors have no callers but errands. -/
theorem lined_after (about : world.deed? act = some (index, deed))
    (found : world.fleet.session? index = some session) (still : ∀ number, deed ≠ .moveActor number)
    (spares : session.LoopsHold (Session.Spares fun _ => true))
    (lined : session.Lined (world.inLine index)) :
    (session.afterDeed deed).1.Lined ((world.after act).inLine index) := by
  by_cases performs : ∃ chore, deed = .perform chore
  · rcases performs with ⟨chore, rfl⟩
    cases act with
    | carryOn errand =>
        rcases exists_errand_of_deed? about with ⟨other, rest, here, same⟩
        cases same
        exact lined_carryOn here about found lined
    | _ => cases about
  · rw [not_exists] at performs
    intro key actor present
    rcases session.serves_afterDeed still with ⟨orders, served, _⟩
    have spared : (session.chore? deed).bind Chore.receiver? ≠ some actor.number := by
      intro receives
      cases deed with
      | perform chore => exact performs chore rfl
      | moveLoop number =>
          rcases Option.bind_eq_some_iff.mp receives with ⟨chore, does, isReceiver⟩
          have spared := spares.of_chore? does
          cases chore with
          | deliver other trigger isWaiting =>
              obtain rfl := Option.some.inj isReceiver
              exact (served.isAside (spared _ _ _ rfl rfl)).2 key actor present rfl
          | _ => cases isReceiver
      | _ => cases receives
    refine (served.callers_le lined present spared).trans (le_inLine_after fun chore same => ?_)
    cases about.symm.trans same
    exact performs chore rfl

end World

namespace SlowMotion

variable {slow : SlowMotion} {act : Act} {index number : Nat} {session next : Session}

theorem errands_step (slow : SlowMotion) (member number : Nat) :
    (slow.step member number).world.errands = slow.world.errands := by
  rw [step]
  split
  · rfl
  · split <;> rfl

theorem le_inLine_after (still : ∀ chore, slow.world.deed? act ≠ some (index, .perform chore)) :
    slow.world.inLine index number ≤ (slow.after act).world.inLine index number := by
  by_cases moves : ∃ member number, act = .moveActor member number
  · rcases moves with ⟨member, number, rfl⟩
    rw [World.inLine, World.inLine, after, errands_step]
  · rw [after_of_still fun member number same => moves ⟨member, number, same⟩]
    exact World.le_inLine_after still

/-- What is known of a member of a fleet throughout. -/
structure Tidy (slow : SlowMotion) (index : Nat) (session : Session) : Prop where
  numbered : session.engine.Numbered
  keyed : ∀ key actor, session.engine.roster.find? key = some actor → actor.key = key
  /-- Nobody of the roster is about to end. -/
  lasting : ∀ key actor, session.engine.roster.find? key = some actor → actor.IsLasting
  loops : session.LoopsHold (Session.Spares fun _ => true)
  errands : slow.world.Spares index session
  /-- Nobody counts as a caller who is not in line. -/
  lined : session.Lined (slow.world.inLine index)

theorem Tidy.step (tidy : slow.Tidy index session) {actor : Actor}
    (found : session.engine.actor? number = some actor) {pace : Pace} {state : Session × Pace}
    (step : session.Step actor pace state) {slower : SlowMotion}
    (errands : slower.world.errands = slow.world.errands) : slower.Tidy index state.1 := by
  have same := step.sameNumbers
  have spares : ∀ {cares : Trigger → Bool} {chore : Chore}, session.Spares cares chore →
      state.1.Spares cares chore :=
    fun spares number trigger isWaiting isChore cared =>
      (spares number trigger isWaiting isChore cared).of_sameNumbers same
  refine ⟨tidy.numbered.of_sameNumbers same, ?_, ?_, ?_, ?_, ?_⟩
  · intro key later present
    rcases step.recalls tidy.numbered found present with ⟨former, formerFound, seat, _⟩
    exact seat.key.trans (tidy.keyed key former formerFound)
  · intro key later present
    rcases step.recalls tidy.numbered found present with ⟨former, formerFound, seat, _⟩
    exact seat.isLasting (tidy.lasting key former formerFound)
  · intro loop member chore isChore
    rw [step.loops] at member
    exact spares (tidy.loops loop member chore isChore)
  · intro errand member own chore isChore
    rw [errands] at member
    exact spares (tidy.errands errand member own chore isChore)
  · intro key later present
    rcases step.recalls tidy.numbered found present with ⟨former, formerFound, seat, _⟩
    rw [World.inLine, errands, seat.callers, seat.number]
    exact tidy.lined key former formerFound

/-- A chore that a member does in a deed tells nobody of the roster to end. -/
theorem Tidy.spares_chore? (tidy : slow.Tidy index session) {deed : Deed}
    (about : slow.world.deed? act = some (index, deed)) {chore : Chore}
    (does : session.chore? deed = some chore) : session.Spares Trigger.isShutdown chore := by
  cases deed with
  | perform other =>
      obtain rfl := Option.some.inj does
      cases act with
      | carryOn errand =>
          rcases World.exists_errand_of_deed? about with ⟨another, rest, here, same⟩
          cases same
          have spares := tidy.errands _ (List.mem_of_getElem? here) rfl _ List.mem_cons_self
          exact spares.mono fun trigger ends => by cases trigger <;> first | rfl | cases ends
      | _ => cases about
  | moveLoop number =>
      exact fun receiver trigger isWaiting same _ =>
        tidy.loops.of_chore? does receiver trigger isWaiting same rfl
  | _ => cases does

theorem Tidy.deed (tidy : slow.Tidy index session) {deed : Deed}
    (found : slow.world.fleet.session? index = some session)
    (about : slow.world.deed? act = some (index, deed))
    (still : ∀ number, deed ≠ .moveActor number) :
    (slow.after act).Tidy index (session.afterDeed deed).1 := by
  rcases session.serves_afterDeed still with ⟨orders, served, _⟩
  have inTime : ∀ member number, act ≠ .moveActor member number := by
    rintro member number rfl
    cases about
    exact still number rfl
  rw [after_of_still inTime]
  refine ⟨served.numbered tidy.numbered, ?_, ?_, ?_, ?_, ?_⟩
  · intro key actor present
    cases served.recalls present with
    | stays formerFound hears => exact hears.key.trans (tidy.keyed key _ formerFound)
    | starts isNew isKey => exact isKey
  · intro key actor present
    exact served.isLasting tidy.lasting (fun chore does => tidy.spares_chore? about does) present
  · exact tidy.loops.afterDeed (Session.enduring_spares _) tidy.numbered still
  · exact tidy.errands.after about found still tidy.numbered
  · exact World.lined_after about found still tidy.loops tidy.lined

theorem Tidy.rest (tidy : slow.Tidy index session) (same : next.engine = session.engine)
    (idle : ∀ deed, slow.world.deed? act = some (index, deed) →
      ∃ number, deed = .moveActor number) : (slow.after act).Tidy index next := by
  have errands : ∀ errand ∈ (slow.after act).world.errands, errand.member = index →
      errand ∈ slow.world.errands := by
    intro errand member own
    by_cases moves : ∃ member number, act = .moveActor member number
    · rcases moves with ⟨other, number, rfl⟩
      rwa [SlowMotion.after, errands_step] at member
    · rw [after_of_still fun member number same => moves ⟨member, number, same⟩] at member
      refine World.mem_errands_of_after (fun deed about => ?_) member own
      rcases idle deed about with ⟨number, rfl⟩
      exact moves ⟨index, number, World.eq_moveActor_of_deed? about⟩
  rcases next with ⟨now, backend, engine⟩
  subst same
  refine ⟨tidy.numbered, tidy.keyed, tidy.lasting, tidy.loops, ?_, ?_⟩
  · intro errand member own
    exact tidy.errands errand (errands errand member own) own
  · intro key actor present
    refine (tidy.lined key actor present).trans (le_inLine_after fun chore about => ?_)
    rcases idle _ about with ⟨number, isMove⟩
    cases isMove

theorem Tidy.after (tidy : slow.Tidy index session)
    (found : slow.world.fleet.session? index = some session)
    (shift : slow.Shift act index session next) : (slow.after act).Tidy index next := by
  cases shift with
  | @steps number actor moves isActor =>
      subst moves
      exact tidy.step isActor (session.step_cases actor _) (slow.errands_step index number)
  | acts about still => exact tidy.deed found about still
  | rests same idle => exact tidy.rest same idle

/-- In every run in slow motion, members stay tidy. -/
theorem tidy_afterAll {world : World} (isFresh : world.IsFresh) {acts : List Act}
    (found : ((new world).afterAll acts).world.fleet.session? index = some session) :
    ((new world).afterAll acts).Tidy index session := by
  refine afterAll_induction (motive := fun slow session => slow.Tidy index session) ?_ ?_ found
  · intro session found
    rcases isFresh.exists_eq_new found with ⟨source, config, sink, assignment, partition, same⟩
    have nobody : ∀ key actor, session.engine.roster.find? key ≠ some actor := by
      rw [same]
      exact fun key actor present => by cases present
    refine ⟨?_, ?_, ?_, ?_, ?_, ?_⟩
    · rw [same]
      exact Engine.numbered_new _ _ _ _ _
    · exact fun key actor present => absurd present (nobody key actor)
    · exact fun key actor present => absurd present (nobody key actor)
    · intro loop member
      rw [same] at member
      cases member
    · intro errand member
      rw [new, isFresh.idle] at member
      cases member
    · exact fun key actor present => absurd present (nobody key actor)
  · intro slow act former session formerFound tidy shift
    exact tidy.after formerFound shift

end SlowMotion

end Reconciler
