import Reconciler.Proofs.Fleet.Requests

/-!
# What calls leave to do

What is left of a request may include an order for an actor, and then the order comes first.
-/

namespace Reconciler

namespace Chore

/-- An order among some chores is the first of them. -/
def OrderFirst (chores : List Chore) : Prop :=
  orders chores.tail = []

variable {chores rest : List Chore} {chore : Chore}

theorem orders_append (chores rest : List Chore) :
    orders (chores ++ rest) = orders chores ++ orders rest :=
  List.filterMap_append

theorem orders_cons (chore : Chore) (chores : List Chore) :
    orders (chore :: chores) = chore.order?.toList ++ orders chores := by
  rw [orders, List.filterMap_cons]
  cases chore.order? <;> rfl

theorem orderFirst_of_orders_eq_nil (orderless : orders chores = []) : OrderFirst chores := by
  cases chores with
  | nil => rfl
  | cons chore chores =>
      rw [orders_cons, List.append_eq_nil_iff] at orderless
      exact orderless.2

/-- What holds of all chores that a request about manifests and deployments may leave. -/
structure Typical (allows : List Chore → Prop) : Prop where
  nothing : allows []
  order : ∀ number cause, cause.isOrder = true → allows [.deliver number cause false]
  announced : ∀ number cause event, cause.isOrder = true →
    allows [.deliver number cause false, .publish event]

/-- What holds of all chores that a request may leave. -/
structure Ordinary (allows : List Chore → Prop) : Prop extends Typical allows where
  released : ∀ lost owned changed, allows [.release lost owned changed]
  resynced : ∀ lost owned changed, allows [.release lost owned changed, .wakeAll]
  started : ∀ lost owned changed, allows [.release lost owned changed, .startLoop]
  swept : ∀ start report keys, allows [.resend start report keys]
  stopped : ∀ maintenance : Option Nat,
    allows ((maintenance.map awaitLoop).toList ++ [.stopAll])

theorem ordinary_orderFirst : Ordinary OrderFirst where
  nothing := rfl
  order _ _ _ := rfl
  announced _ _ _ _ := rfl
  released _ _ _ := rfl
  resynced _ _ _ := rfl
  started _ _ _ := rfl
  swept _ _ _ := rfl
  stopped maintenance := by cases maintenance <;> rfl

end Chore

namespace Call

variable {α β : Type}

/-- Whatever a call answers has a property. -/
def Answers (call : Call α) (holds : α → Prop) : Prop :=
  ∀ session value later, call.run session = (.ok value, later) → holds value

variable {holds : α → Prop} {fits : β → Prop} {call : Call α} {next : α → Call β}

theorem answers_pure {value : α} (fit : holds value) : (pure value : Call α).Answers holds := by
  intro session answer later ran
  cases ran
  exact fit

theorem answers_throw (problem : ControlError) (holds : α → Prop) :
    (throw problem : Call α).Answers holds := by
  intro session answer later ran
  cases ran

theorem Answers.bind (first : call.Answers holds)
    (rest : ∀ value, holds value → (next value).Answers fits) : (call >>= next).Answers fits := by
  intro session answer last ran
  rw [run_bind] at ran
  rcases asked : call.run session with ⟨problem | value, later⟩
  · rw [asked] at ran
    cases ran
  · rw [asked] at ran
    exact rest value (first session value later asked) later answer last ran

/-- The answer depends on what comes last. -/
theorem answers_last (rest : ∀ value, (next value).Answers fits) :
    (call >>= next).Answers fits := by
  have anything : call.Answers fun _ => True := fun _ _ _ _ => trivial
  exact anything.bind fun value _ => rest value

theorem Answers.map {answer : α → β} (first : call.Answers fun value => fits (answer value)) :
    (call >>= fun value => pure (answer value)).Answers fits :=
  first.bind fun _ fit => answers_pure fit

theorem answers_trigger (key : ActorKey) (intent : Intent) (cause : Trigger) :
    (trigger key intent cause).Answers fun chores =>
      ∃ number, chores = [.deliver number cause false] := by
  intro session chores later ran
  rw [run_trigger] at ran
  cases ran
  exact ⟨_, rfl⟩

section Typical

variable {allows : List Chore → Prop} (typical : Chore.Typical allows)
include typical

theorem answers_outright (call : Call α) : call.outright.Answers allows :=
  answers_last fun _ => answers_pure typical.nothing

theorem answers_triggerDeployed (app : AppName) {cause : Trigger} (ordered : cause.isOrder = true) :
    (triggerDeployed app cause).Answers allows := by
  refine answers_last fun deployment => ?_
  rcases deployment with _ | ⟨lattice, _ | _, updatedAt⟩
  · exact answers_pure typical.nothing
  · intro session chores later ran
    rcases answers_trigger _ _ _ session chores later ran with ⟨number, rfl⟩
    exact typical.order number cause ordered
  · exact answers_pure typical.nothing

theorem answers_submit (manifest : Manifest) :
    (submit manifest).Answers fun pending => allows pending.chores := by
  refine answers_last fun _ => answers_last fun _ => answers_last fun _ => answers_last fun _ =>
    answers_last fun _ => Answers.map ?_
  exact answers_triggerDeployed typical manifest.name rfl

theorem answers_rollback (app : AppName) (version : String) :
    (rollback app version).Answers fun pending => allows pending.chores := by
  refine answers_last fun _ => answers_last fun _ => answers_last fun _ => answers_last fun _ =>
    Answers.map ?_
  exact answers_triggerDeployed typical app rfl

/-- To tell an actor of a request comes before the announcement of the request. -/
theorem answers_trigger_publish (key : ActorKey) (intent : Intent) {cause : Trigger}
    (ordered : cause.isOrder = true) (event : ControlEvent) {answer : α} :
    (do
      let chores ← trigger key intent cause
      return ⟨chores ++ [.publish event], answer⟩ : Call (Pending α)).Answers fun pending =>
        allows pending.chores := by
  refine (answers_trigger key intent cause).bind fun chores => ?_
  rintro ⟨number, rfl⟩
  exact answers_pure (typical.announced number cause event ordered)

theorem answers_deploy (app : AppName) (version : Option String) (lattice : LatticeId) :
    (deploy app version lattice).Answers fun pending => allows pending.chores :=
  answers_last fun _ => answers_last fun _ => answers_last fun _ => answers_last fun _ =>
    answers_last fun _ => answers_last fun _ => answers_trigger_publish typical _ _ rfl _

theorem answers_undeploy (app : AppName) (mode : UndeployMode) :
    (undeploy app mode).Answers fun pending => allows pending.chores := by
  refine answers_last fun _ => answers_last fun _ => answers_last fun deployment => ?_
  cases deployment with
  | none => exact answers_throw _ _
  | some record => exact answers_last fun _ => answers_trigger_publish typical _ _ rfl _

theorem answers_deleteApplication (app : AppName) :
    (deleteApplication app).Answers fun pending => allows pending.chores := by
  refine answers_last fun _ => answers_last fun _ => answers_last fun deployment => ?_
  cases deployment with
  | none =>
      refine answers_last fun existed => ?_
      cases existed with
      | false => exact answers_pure typical.nothing
      | true => exact answers_last fun _ => answers_pure typical.nothing
  | some record =>
      rw [Option.isSome_some, if_pos rfl]
      refine Answers.map ?_
      exact answers_undeploy typical app .force

end Typical

theorem answers_rebalance {holds : Pending Nat → Prop}
    (fit : ∀ lost owned changed, holds ⟨[.release lost owned changed], owned⟩) :
    rebalance.Answers holds :=
  answers_last fun _ => answers_last fun _ => answers_last fun _ => answers_last fun _ =>
    answers_pure (fit _ _ _)

theorem answers_resync {holds : Pending Unit → Prop}
    (fit : ∀ lost owned changed, holds ⟨[.release lost owned changed, .wakeAll], ()⟩) :
    resync.Answers holds :=
  Answers.map (answers_rebalance fit)

theorem answers_reapCommands {holds : Pending Unit → Prop}
    (fit : ∀ start report keys, holds ⟨[.resend start report keys], ()⟩) :
    reapCommands.Answers holds :=
  answers_last fun _ => answers_last fun _ => answers_pure (fit _ _ _)

section Ordinary

variable {allows : List Chore → Prop} (ordinary : Chore.Ordinary allows)
include ordinary

theorem answers_shutdown : shutdown.Answers fun pending => allows pending.chores :=
  answers_last fun _ => answers_last fun _ => answers_pure (ordinary.stopped _)

/-- What holds of all chores that requests may leave, holds of those of a request. -/
theorem answers_request (request : Request) : request.call.Answers allows := by
  have typical := ordinary.toTypical
  cases request with
  | submit manifest => exact (answers_submit typical manifest).map
  | rollback app version => exact (answers_rollback typical app version).map
  | deploy app version lattice => exact (answers_deploy typical app version lattice).map
  | undeploy app mode => exact (answers_undeploy typical app mode).map
  | deleteApplication app => exact (answers_deleteApplication typical app).map
  | setPartition partition =>
      exact (answers_last fun _ => answers_rebalance ordinary.released).map
  | rebalance => exact (answers_rebalance ordinary.released).map
  | reapCommands => exact (answers_reapCommands ordinary.swept).map
  | resync => exact (answers_resync ordinary.resynced).map
  | start => exact Answers.map (Answers.map (answers_rebalance ordinary.started))
  | shutdown => exact (answers_shutdown ordinary).map
  | _ => exact answers_outright typical _

end Ordinary

end Call

end Reconciler
