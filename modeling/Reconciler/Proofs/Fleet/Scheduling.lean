import Reconciler.Fleet.Schedule
import Reconciler.Proofs.Fleet.Speeds

/-!
# The scheduler is punctual

What the scheduler does for a caller is a run in which time passes only when nobody has anything to
do, and only up to the next time that somebody waits for.
-/

namespace Reconciler

theorem Actor.canMove_of_deadline? {actor : Actor} {deadline now : Nat}
    (awaited : actor.deadline? = some deadline) (due : deadline ≤ now) :
    actor.canMove now = true := by
  rw [deadline?] at awaited
  rw [canMove]
  split at awaited
  · cases awaited
  · cases awaited
    simp [due]
  · cases awaited
    simp [due]

theorem Session.canMoveLoop_of_deadline? {session : Session} {loop : MaintenanceLoop}
    {deadline : Nat} (awaited : loop.deadline? = some deadline)
    (due : deadline ≤ session.now.elapsed) : session.canMoveLoop loop = true := by
  rw [MaintenanceLoop.deadline?] at awaited
  rw [canMoveLoop]
  split at awaited
  · rename_i resting
    cases awaited
    simp [resting, canDo, due]
  · cases awaited
  · rename_i idle
    rcases Option.map_eq_some_iff.mp awaited with ⟨timers, begun, rfl⟩
    simp [idle, MaintenanceLoop.isDue, begun, due]

namespace Fleet

/-- Two fleets differ at most in whose turn is next. -/
structure SameWork (fleet other : Fleet) : Prop where
  now : other.now = fleet.now
  shared : other.shared = fleet.shared
  members : other.members = fleet.members

variable {fleet other : Fleet} {index : Nat} {session : Session}

theorem SameWork.trans {last : Fleet} (same : fleet.SameWork other) (more : other.SameWork last) :
    fleet.SameWork last :=
  ⟨more.now.trans same.now, more.shared.trans same.shared, more.members.trans same.members⟩

theorem SameWork.session? (same : fleet.SameWork other) (index : Nat) :
    other.session? index = fleet.session? index := by
  rw [Fleet.session?, Fleet.session?, same.now, same.shared, same.members]

theorem SameWork.putSession (same : fleet.SameWork other) (index : Nat) (session : Session) :
    (fleet.putSession index session).SameWork (other.putSession index session) := by
  rcases fleet with ⟨now, shared, members, ready⟩
  rcases other with ⟨_, _, _, otherReady⟩
  rcases same with ⟨rfl, rfl, rfl⟩
  simp only [Fleet.putSession]
  split <;> exact ⟨rfl, rfl, rfl⟩

theorem sameWork_rouse (fleet : Fleet) : fleet.SameWork fleet.rouse :=
  ⟨rfl, rfl, rfl⟩

/-- Every task that can move is ready. -/
def IsRoused (fleet : Fleet) : Prop :=
  ∀ task ∈ fleet.movable, task ∈ fleet.ready

theorem isRoused_rouse (fleet : Fleet) : fleet.rouse.IsRoused := by
  intro task movable
  have movable : task ∈ fleet.movable := movable
  rw [rouse, List.mem_append, List.mem_filter]
  by_cases ready : task ∈ fleet.ready
  · exact Or.inl ready
  · exact Or.inr ⟨movable, by simpa using ready⟩

theorem mem_movable_of_movableOf {task : Task} (found : fleet.session? index = some session)
    (movable : task ∈ fleet.movableOf index) : task ∈ fleet.movable := by
  rcases session?_eq_some_iff.mp found with ⟨member, here, _⟩
  exact List.mem_flatMap.mpr
    ⟨index, List.mem_range.mpr (List.getElem?_eq_some_iff.mp here).1, movable⟩

theorem mem_movable_of_actor (found : fleet.session? index = some session) {actor : Actor}
    (member : actor ∈ session.engine.actors) (can : actor.canMove fleet.now.elapsed = true) :
    .actor index actor.number ∈ fleet.movable := by
  refine mem_movable_of_movableOf found ?_
  rw [movableOf, found]
  exact List.mem_append_right _
    (List.mem_map.mpr ⟨actor, List.mem_filter.mpr ⟨member, can⟩, rfl⟩)

theorem mem_movable_of_loop (found : fleet.session? index = some session) {loop : MaintenanceLoop}
    (member : loop ∈ session.engine.loops) (can : session.canMoveLoop loop = true) :
    .loop index loop.number ∈ fleet.movable := by
  refine mem_movable_of_movableOf found ?_
  rw [movableOf, found]
  exact List.mem_append_left _ (List.mem_map.mpr ⟨loop, List.mem_filter.mpr ⟨member, can⟩, rfl⟩)

theorem mem_deadlines_of_actor (found : fleet.session? index = some session) {actor : Actor}
    (member : actor ∈ session.engine.actors) {deadline : Nat}
    (awaited : deadline ∈ actor.deadline?) : deadline ∈ fleet.deadlines := by
  rcases session?_eq_some_iff.mp found with ⟨_, here, rfl⟩
  exact List.mem_flatMap.mpr ⟨_, List.mem_of_getElem? here,
    List.mem_append_left _ (List.mem_filterMap.mpr ⟨actor, member, awaited⟩)⟩

/-- When no task is ready, every time that a task waits for is yet to come. -/
theorem IsRoused.lt_of_mem_deadlines (roused : fleet.IsRoused) (idle : fleet.ready = [])
    {time : Nat} (awaited : time ∈ fleet.deadlines) : fleet.now.elapsed < time := by
  rcases List.mem_flatMap.mp awaited with ⟨member, isMember, awaited⟩
  rcases List.mem_iff_getElem?.mp isMember with ⟨index, here⟩
  have found := session?_eq_some_iff.mpr ⟨member, here, rfl⟩
  have unable : ∀ task, task ∉ fleet.movable := fun task movable => by
    have ready := roused task movable
    rw [idle] at ready
    cases ready
  by_contra past
  rw [Nat.not_lt] at past
  rw [deadlinesOf, List.mem_append, List.mem_filterMap, List.mem_filterMap] at awaited
  rcases awaited with ⟨actor, isActor, awaited⟩ | ⟨loop, isLoop, awaited⟩
  · exact unable _ (mem_movable_of_actor found isActor (Actor.canMove_of_deadline? awaited past))
  · exact unable _ (mem_movable_of_loop found isLoop
      (Session.canMoveLoop_of_deadline? awaited past))

/-- The clock goes on to a time that is yet to come, and that nobody waits for a time before. -/
theorem IsRoused.lt_of_nextTime? (roused : fleet.IsRoused) (idle : fleet.ready = [])
    (inside : index < fleet.members.length) {chore : Chore}
    (cannot : ¬fleet.canDo index chore = true) {time : Nat}
    (next : fleet.nextTime? chore = some time) :
    fleet.now.elapsed < time ∧ ∀ deadline ∈ fleet.deadlines, time ≤ deadline := by
  rcases List.min?_eq_some_iff.mp next with ⟨member, least⟩
  refine ⟨?_, fun deadline awaited => least deadline (List.mem_append_right _ awaited)⟩
  rcases List.mem_append.mp member with rests | awaited
  · have found := session?_eq_some_iff.mpr ⟨_, List.getElem?_eq_getElem inside, rfl⟩
    cases chore with
    | rest other =>
        obtain rfl : time = other := by simpa [restTime?] using rests
        simpa [canDo, found, Session.canDo] using cannot
    | _ => cases rests
  · exact roused.lt_of_mem_deadlines idle awaited

end Fleet

namespace Task

/-- The member whose task it is. -/
def member : Task → Nat
  | actor member _ => member
  | loop member _ => member

/-- What the member does when the task has its turn. -/
def deed : Task → Deed
  | actor _ number => .moveActor number
  | loop _ number => .moveLoop number

/-- What happens when a task has its turn. -/
def act : Task → Act
  | actor member number => .moveActor member number
  | loop member number => .moveLoop member number

end Task

namespace Fleet

variable {fleet : Fleet} {task : Task} {session : Session}

theorem moveTask_of_nobody (nobody : fleet.session? task.member = none) :
    fleet.moveTask task = fleet := by
  cases task <;>
  · rw [Task.member] at nobody
    rw [moveTask, nobody]

theorem moveTask_of_session? (found : fleet.session? task.member = some session) :
    fleet.moveTask task = fleet.putSession task.member (session.afterDeed task.deed).1 := by
  cases task with
  | actor member number =>
      rw [Task.member] at found ⊢
      rw [moveTask, found, Task.deed, Session.afterDeed]
      cases there : session.engine.actor? number with
      | none => simp only [there, putSession_self found]
      | some actor => simp only [there]
  | loop member number =>
      rw [Task.member] at found ⊢
      rw [moveTask, found, Task.deed, Session.afterDeed]
      cases there : session.engine.loop? number with
      | none => simp only [there, putSession_self found]
      | some loop => simp only [there]

/-- Nobody joins a fleet and nobody leaves it when a task has its turn. -/
theorem length_members_moveTask (fleet : Fleet) (task : Task) :
    (fleet.moveTask task).members.length = fleet.members.length := by
  cases found : fleet.session? task.member with
  | none => rw [moveTask_of_nobody found]
  | some session => rw [moveTask_of_session? found, length_members_putSession]

end Fleet

namespace World

variable {start world : World} {fleet : Fleet} {acts : List Act} {number : Nat} {errand : Errand}

/-- No time passes in an act that an actor has a use for. -/
def IsPunctual (world : World) (act : Act) : Prop :=
  ∀ member session actor, world.fleet.session? member = some session →
    actor ∈ session.engine.actors → (SlowMotion.new world).IsPunctual act member actor

/-- No time passes in some acts that an actor has a use for. -/
def IsPunctualRun (world : World) (acts : List Act) : Prop :=
  ∀ done act, done ++ [act] <+: acts → (world.afterAll done).IsPunctual act

theorem isPunctual_of_millis {act : Act} (quick : act.millis = 0) : world.IsPunctual act :=
  fun _ _ _ _ _ passes => absurd quick passes.ne'

theorem IsPunctualRun.concat (punctual : world.IsPunctualRun acts) {act : Act}
    (more : (world.afterAll acts).IsPunctual act) : world.IsPunctualRun (acts ++ [act]) := by
  intro done other part
  rcases List.prefix_concat_iff.mp part with whole | within
  · rcases List.append_inj' whole rfl with ⟨rfl, same⟩
    cases same
    exact more
  · exact punctual done other within

theorem deed?_act (world : World) (task : Task) :
    world.deed? task.act = some (task.member, task.deed) := by
  cases task <;> rfl

theorem errands_after_act (world : World) (task : Task) :
    (world.after task.act).errands = world.errands := by
  cases found : world.fleet.session? task.member with
  | none =>
      rw [after, deed?_act]
      simp only [found]
  | some session =>
      rw [errands_after (world.deed?_act task) found]
      cases task <;> rfl

/-- A task that has its turn does in a fleet what it does in a world. -/
theorem sameWork_moveTask (same : world.fleet.SameWork fleet) (task : Task) :
    (world.after task.act).fleet.SameWork (fleet.moveTask task) := by
  have sameSession := same.session? task.member
  cases found : world.fleet.session? task.member with
  | none =>
      rw [Fleet.moveTask_of_nobody (sameSession.trans found), after, deed?_act]
      simp only [found]
      exact same
  | some session =>
      rw [Fleet.moveTask_of_session? (sameSession.trans found),
        after_of_deed? (world.deed?_act task) found]
      exact same.putSession task.member _

/--
A fleet in which the scheduler is at an errand is what a punctual run comes to, with every task
ready that can move.
-/
structure Follows (start : World) (acts : List Act) (number : Nat) (errand : Errand)
    (fleet : Fleet) : Prop where
  punctual : start.IsPunctualRun acts
  work : (start.afterAll acts).fleet.SameWork fleet
  roused : fleet.IsRoused
  inside : errand.member < fleet.members.length
  here : (start.afterAll acts).errands[number]? = some errand

/-- The scheduler has a member do the first chore of the errand. -/
theorem Follows.perform {index : Nat} {chore : Chore} {chores : List Chore}
    (follows : start.Follows acts number ⟨index, chore :: chores⟩ fleet)
    (can : fleet.canDo index chore = true) :
    start.Follows (acts ++ [.carryOn number]) number
      (Errand.goOn ⟨index, chore :: chores⟩ (fleet.perform index chore).2)
      (fleet.perform index chore).1 := by
  rcases follows with ⟨punctual, work, roused, inside, here⟩
  have found := Fleet.session?_eq_some_iff.mpr ⟨_, List.getElem?_eq_getElem inside, rfl⟩
  generalize Session.mk _ _ _ = session at found
  have about : (start.afterAll acts).deed? (.carryOn number) = some (index, .perform chore) := by
    rw [deed?, here]
  have foundThere := found
  rw [work.session?] at foundThere
  have does : session.afterDeed (.perform chore) = session.perform chore := by
    rw [Fleet.canDo, found] at can
    exact if_pos can
  have performed : fleet.perform index chore =
      ((fleet.putSession index (session.perform chore).1).rouse, (session.perform chore).2) := by
    rw [Fleet.perform, found]
  rw [performed]
  refine ⟨punctual.concat (isPunctual_of_millis rfl), ?_, Fleet.isRoused_rouse _, ?_, ?_⟩
  · rw [afterAll_concat, after_of_deed? about foundThere, does]
    exact (work.putSession index _).trans (Fleet.sameWork_rouse _)
  · rw [Errand.member_goOn]
    exact (Fleet.length_members_putSession fleet index _).symm ▸ inside
  · rw [afterAll_concat, errands_after about foundThere, does, errandsAfter, List.getElem?_modify,
      here]
    simp

/-- The scheduler gives a task its turn, or passes over one that cannot move any more. -/
theorem Follows.takeTurn (follows : start.Follows acts number errand fleet) :
    ∃ more, start.Follows (acts ++ more) number errand fleet.takeTurn := by
  rcases follows with ⟨punctual, work, roused, inside, here⟩
  rw [Fleet.takeTurn.eq_def]
  split
  · exact ⟨[], by rw [List.append_nil]; exact ⟨punctual, work, roused, inside, here⟩⟩
  · rename_i task tasks ready
    split
    · refine ⟨[task.act], punctual.concat (isPunctual_of_millis ?_), ?_, Fleet.isRoused_rouse _,
        ?_, ?_⟩
      · cases task <;> rfl
      · rw [afterAll_concat]
        exact (sameWork_moveTask work task).trans (Fleet.sameWork_rouse _)
      · exact (Fleet.length_members_moveTask fleet task).symm ▸ inside
      · rw [afterAll_concat, errands_after_act, here]
    · rename_i still
      refine ⟨[], ?_⟩
      rw [List.append_nil]
      refine ⟨punctual, ⟨work.now, work.shared, work.members⟩, fun other movable => ?_, inside,
        here⟩
      have isReady := roused other movable
      rw [ready] at isReady
      rcases List.mem_cons.mp isReady with rfl | later
      · exact absurd (List.contains_iff_mem.mpr movable) still
      · exact later

/-- When nobody can do anything, the scheduler lets time pass up to the next time. -/
theorem Follows.advanceTo {chore : Chore} (follows : start.Follows acts number errand fleet)
    (idle : fleet.ready = []) (cannot : ¬fleet.canDo errand.member chore = true) {time : Nat}
    (next : fleet.nextTime? chore = some time) :
    ∃ act, start.Follows (acts ++ [act]) number errand (fleet.advanceTo time) := by
  rcases follows with ⟨punctual, work, roused, inside, here⟩
  rcases roused.lt_of_nextTime? idle inside cannot next with ⟨later, least⟩
  refine ⟨.wait (time - fleet.now.elapsed)
    (fleet.now.wall.addMillis (time - fleet.now.elapsed)), punctual.concat ?_, ?_,
    Fleet.isRoused_rouse _, inside, ?_⟩
  · intro member session actor found isActor _
    have foundHere := found
    rw [← work.session?] at foundHere
    have now : (start.afterAll acts).fleet.now.elapsed = fleet.now.elapsed :=
      congrArg Moment.elapsed work.now.symm
    refine ⟨?_, fun deadline awaited => ?_⟩
    · rintro (awake | can)
      · exact awake rfl
      · have can : actor.canMove (start.afterAll acts).fleet.now.elapsed = true := can
        have ready := roused _ (Fleet.mem_movable_of_actor foundHere isActor (now ▸ can))
        rw [idle] at ready
        cases ready
    · have bound := least deadline (Fleet.mem_deadlines_of_actor foundHere isActor awaited)
      change (start.afterAll acts).fleet.now.elapsed + (time - fleet.now.elapsed) ≤ deadline
      omega
  · rw [afterAll_concat]
    refine ⟨?_, work.shared, work.members⟩
    have now : (start.afterAll acts).fleet.now.elapsed + (time - fleet.now.elapsed) = time := by
      rw [← congrArg Moment.elapsed work.now]
      omega
    exact congrArg (Moment.mk · _) now.symm
  · rw [afterAll_concat]
    exact here

/-- Some more acts of a punctual run come to the work of a fleet. -/
def Reaches (start : World) (acts : List Act) (fleet : Fleet) : Prop :=
  ∃ more, start.IsPunctualRun (acts ++ more) ∧
    (start.afterAll (acts ++ more)).fleet.SameWork fleet

theorem Reaches.of_append {more : List Act} (reaches : start.Reaches (acts ++ more) fleet) :
    start.Reaches acts fleet := by
  rcases reaches with ⟨last, run⟩
  exact ⟨more ++ last, by rwa [← List.append_assoc]⟩

theorem Follows.reaches (follows : start.Follows acts number errand fleet) :
    start.Reaches acts fleet :=
  ⟨[], by rw [List.append_nil]; exact ⟨follows.punctual, follows.work⟩⟩

/--
Whatever the scheduler does for a caller, with at most a number of moves, is a run in which no time
passes that an actor has a use for.
-/
theorem Follows.reaches_complete (moves : Nat) (turn : Turn) {index : Nat} {chores : List Chore}
    (follows : start.Follows acts number ⟨index, chores⟩ fleet) :
    start.Reaches acts (fleet.complete index turn moves chores).1 := by
  induction moves generalizing fleet acts chores turn with
  | zero => cases chores <;> exact follows.reaches
  | succ moves ih =>
      cases chores with
      | nil => exact follows.reaches
      | cons chore chores =>
          cases turn with
          | caller =>
              rw [Fleet.complete]
              split
              · rename_i can
                have performed := follows.perform can
                split
                · rename_i next more answered
                  rw [answered] at performed
                  exact (ih .caller performed).of_append
                · rename_i next problem answered
                  rw [answered] at performed
                  exact performed.reaches.of_append
              · exact ih .tasks follows
          | tasks =>
              cases ready : fleet.ready with
              | cons task tasks =>
                  rw [Fleet.complete.eq_def]
                  simp only [ready]
                  rcases follows.takeTurn with ⟨more, turned⟩
                  exact (ih .tasks turned).of_append
              | nil =>
                  rw [Fleet.complete.eq_def]
                  simp only [ready]
                  split
                  · exact ih .caller follows
                  · rename_i cannot
                    split
                    · rename_i time next
                      rcases follows.advanceTo ready cannot next with ⟨act, advanced⟩
                      exact (ih .caller advanced).of_append
                    · exact follows.reaches

/-- The scheduler begins with an errand when somebody has asked a member for something. -/
theorem follows_ask (punctual : start.IsPunctualRun acts)
    (work : (start.afterAll acts).fleet.SameWork fleet) {index : Nat}
    (inside : index < fleet.members.length) (request : Request) :
    ∃ answer, (fleet.ask index request.call).2 = some answer ∧
      start.Follows (acts ++ [.ask index request]) (start.afterAll acts).errands.length
        ⟨index, answer.toOption.getD []⟩ (fleet.ask index request.call).1 := by
  have found := Fleet.session?_eq_some_iff.mpr ⟨_, List.getElem?_eq_getElem inside, rfl⟩
  generalize Session.mk _ _ _ = session at found
  have about : (start.afterAll acts).deed? (.ask index request) =
    some (index, .answer request) := rfl
  have foundThere := found
  rw [work.session?] at foundThere
  rw [Fleet.ask, found]
  refine ⟨(request.call.run session).1, rfl, punctual.concat (isPunctual_of_millis rfl), ?_,
    Fleet.isRoused_rouse _, ?_, ?_⟩
  · rw [afterAll_concat, after_of_deed? about foundThere]
    exact (work.putSession index _).trans (Fleet.sameWork_rouse _)
  · exact (Fleet.length_members_putSession fleet index _).symm ▸ inside
  · rw [afterAll_concat, errands_after about foundThere, errandsAfter]
    exact List.getElem?_concat_length

/--
Whatever a member is asked for and however long the scheduler takes for it, no time passes in the
meantime that an actor has a use for.
-/
theorem reaches_request (moves : Nat) (punctual : start.IsPunctualRun acts)
    (work : (start.afterAll acts).fleet.SameWork fleet) {index : Nat}
    (inside : index < fleet.members.length) {α : Type} {call : Call (Pending α)} {request : Request}
    (stands : request.call = do return (← call).chores) :
    start.Reaches acts (fleet.request moves index call).1 := by
  rcases follows_ask punctual work inside request with ⟨answer, answered, follows⟩
  have found := Fleet.session?_eq_some_iff.mpr ⟨_, List.getElem?_eq_getElem inside, rfl⟩
  generalize Session.mk _ _ _ = session at found
  rw [Fleet.ask, found, stands] at answered follows
  rw [Fleet.request, Fleet.ask, found]
  simp only at answered follows ⊢
  rw [Call.run_bind] at answered follows
  rcases ran : call.run session with ⟨problem | pending, next⟩
  · rw [ran] at follows
    exact follows.reaches.of_append
  · rw [ran] at answered follows
    obtain rfl := Option.some.inj answered
    exact (follows.reaches_complete moves .caller).of_append

end World

/-- In slow motion, too, no time passes in a punctual run that an actor has a use for. -/
theorem SlowMotion.exists_punctual {world : World} (isFresh : world.IsFresh) {acts : List Act}
    (punctual : world.IsPunctualRun acts) :
    ∃ slower, (new world).afterAll slower = new (world.afterAll acts) ∧
      ∀ done act, done ++ [act] <+: slower → ∀ member session actor,
        ((new world).afterAll done).world.fleet.session? member = some session →
        actor ∈ session.engine.actors →
          ((new world).afterAll done).IsPunctual act member actor := by
  rcases exists_afterAll_eq_new isFresh acts with ⟨slower, reached, timely⟩
  refine ⟨slower, reached, fun done act part member session actor found isActor passes => ?_⟩
  rcases timely done act part passes with ⟨sooner, within, same⟩
  rw [same] at found ⊢
  exact punctual sooner act within member session actor found isActor passes

end Reconciler
