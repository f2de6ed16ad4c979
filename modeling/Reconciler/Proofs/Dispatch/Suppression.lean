import Reconciler.Proofs.Dispatch.Handles

/-!
# What suppresses an action

An action is suppressed while a command with its key has lately succeeded. The key says where an
action happens and of what kind it is, but neither which image or how many instances it starts nor
what a link leads to. Only for stops it is checked that what was done was enough.
-/

namespace Reconciler

namespace RequiredAction

/-- Whether an action that was done leaves nothing to do of another one. -/
def Fulfils : RequiredAction → RequiredAction → Prop
  | .startInstances _ doneKind doneImage _ _ doneCount, .startInstances _ kind image _ _ count =>
    doneImage = image ∧ doneKind = kind ∧ count ≤ doneCount
  | .stopInstances _ _ stopped, .stopInstances _ _ instances => ∀ id ∈ instances, id ∈ stopped
  | .addLink done, .addLink link => done = link
  | .removeLink done, .removeLink key => done = key
  | _, _ => False

instance (done next : RequiredAction) : Decidable (done.Fulfils next) := by
  cases done <;> cases next <;> simp only [Fulfils] <;> infer_instance

/-- Whether an action that was done stands for another one of the same key: a stop if it fulfils it,
and everything else in any case. -/
def StandsFor (done next : RequiredAction) : Prop :=
  done.kind = .stop → next.kind = .stop → done.Fulfils next

theorem covers_iff {done next : RequiredAction} :
    done.covers next = true ↔ done.StandsFor next := by
  cases done with
  | stopInstances component host stopped =>
      cases next <;> simp [covers, StandsFor, kind, Fulfils]
  | _ => cases next <;> simp [covers, StandsFor, kind]

end RequiredAction

namespace Dispatcher

section Proposing

variable (dispatcher : Dispatcher) (now : Moment) (lattice : LatticeId) (app : AppName)
  (action : RequiredAction)

/-- What has lately succeeded under the key of an action, and stands for the action. -/
def SuppressedBy (entry : Entry) : Prop :=
  dispatcher.entries.find? (action.idempotencyKey lattice) = some entry ∧
    (∃ expiresAt, entry.state = .settled expiresAt ∧ now.elapsed < expiresAt) ∧
    entry.command.action.StandsFor action

theorem propose_eq_suppress_iff {handle : CommandHandle} :
    (dispatcher.propose now lattice app action).2 = .suppress handle ↔
      ∃ entry, dispatcher.SuppressedBy now lattice action entry ∧
        entry.command.handle = handle := by
  have stands : ∀ entry, obstacle? now action entry = some (.suppress handle) ↔
      (∃ expiresAt, entry.state = .settled expiresAt ∧ now.elapsed < expiresAt) ∧
        entry.command.action.StandsFor action ∧ entry.command.handle = handle := by
    intro entry
    rw [← RequiredAction.covers_iff]
    cases state : entry.state with
    | settled expiresAt => simp [obstacle?, state, and_assoc]
    | _ => simp [obstacle?, state]
  have asked : (dispatcher.propose now lattice app action).2 = .suppress handle ↔
      (dispatcher.entries.find? (action.idempotencyKey lattice)).bind (obstacle? now action) =
        some (.suppress handle) := by
    rw [propose]
    split
    · rename_i obstacle obstructed
      rw [obstructed, Option.some.injEq]
    · rename_i unobstructed
      simp [unobstructed]
  rw [asked, Option.bind_eq_some_iff]
  simp only [stands, SuppressedBy]
  constructor
  · rintro ⟨entry, found, settled, standsFor, named⟩
    exact ⟨entry, ⟨found, settled, standsFor⟩, named⟩
  · rintro ⟨entry, ⟨found, settled, standsFor⟩, named⟩
    exact ⟨entry, found, settled, standsFor, named⟩

theorem dispatch_eq_suppressed_iff {result : SendResult} {handle : CommandHandle} :
    (dispatcher.dispatch now lattice app action result).answer = .ok (.suppressed handle) ↔
      ∃ entry, dispatcher.SuppressedBy now lattice action entry ∧
        entry.command.handle = handle := by
  rw [← dispatcher.propose_eq_suppress_iff now lattice app action, dispatch]
  split
  · rename_i next other proposed
    simp [proposed]
  · rename_i next other proposed
    simp [proposed]
  · rename_i next command proposed
    cases result with
    | none => simp [proposed, conclude, Except.map]
    | some problem => cases problem <;> simp [proposed, conclude, Except.map]

end Proposing

/-- Every command is tracked under the key of its action. -/
def KeyedByAction (dispatcher : Dispatcher) : Prop :=
  ∀ key entry, dispatcher.entries.find? key = some entry →
    entry.command.action.idempotencyKey entry.command.lattice = key

namespace KeyedByAction

variable {dispatcher next : Dispatcher} {more : List Command}

theorem upkeepStep (keyed : dispatcher.KeyedByAction) (step : UpkeepStep dispatcher more next) :
    next.KeyedByAction := by
  intro key entry found
  rcases step.exists_former found with ⟨former, _, _, formerFound, same, _⟩
  rw [same]
  exact keyed key former formerFound

theorem enter (keyed : dispatcher.KeyedByAction) {now : Moment} {command : Command}
    (entering : dispatcher.Entering now command) :
    (dispatcher.enter now command).KeyedByAction := by
  intro key entry found
  rw [Dispatcher.enter, SortedMap.find?_insert] at found
  split at found
  · rename_i same
    obtain rfl := Option.some.inj found
    exact entering.key.symm.trans same.symm
  · exact keyed key entry found

end KeyedByAction

theorem keyedByAction_performAll (policy : RetryPolicy) (source : Nat) (moves : List Move) :
    ((new policy source).performAll moves).1.KeyedByAction := by
  refine (tracks_new policy source).performAll_induction (motive := KeyedByAction)
    (fun step keyed => keyed.upkeepStep step)
    (fun _ entering keyed => keyed.enter entering) ?_ moves
  intro key entry found
  cases found

theorem command?_eq_some_iff {dispatcher : Dispatcher} (indexed : dispatcher.Indexed)
    {handle : CommandHandle} {command : Command} :
    dispatcher.command? handle = some command ↔
      ∃ key entry, dispatcher.entries.find? key = some entry ∧ entry.command = command ∧
        command.handle = handle := by
  simp only [command?, Option.bind_eq_bind, Option.bind_eq_some_iff, Option.pure_def,
    Option.some.injEq, indexed handle, handleAt?_eq_some_iff]
  constructor
  · rintro ⟨key, ⟨former, formerFound, rfl⟩, entry, found, rfl⟩
    obtain rfl : former = entry := Option.some.inj (formerFound.symm.trans found)
    exact ⟨key, former, found, rfl, rfl⟩
  · rintro ⟨key, entry, found, rfl, rfl⟩
    exact ⟨key, ⟨entry, found, rfl⟩, entry, found, rfl⟩

/-- Whether an action may come to be suppressed because another one was done. -/
def Suppresses (policy : RetryPolicy) (there : LatticeId) (done : RequiredAction)
    (here : LatticeId) (next : RequiredAction) : Prop :=
  ∃ source moves now app result handle command,
    let dispatcher := ((new policy source).performAll moves).1
    (dispatcher.dispatch now here app next result).answer = .ok (.suppressed handle) ∧
      dispatcher.command? handle = some command ∧ command.lattice = there ∧ command.action = done

section Pairs

variable {policy : RetryPolicy} {there here : LatticeId} {done next : RequiredAction}

/-- An action is done, and asked for again at once. -/
theorem suppresses_of_standsFor (remembers : 0 < policy.entryTtl)
    (same : done.idempotencyKey there = next.idempotencyKey here)
    (standsFor : done.StandsFor next) : Suppresses policy there done here next := by
  let now : Moment := default
  let app : AppName := default
  let command := Command.new (.ofNumbers 0 0) now.wall there app done
  let moves : List Move := [.dispatch now there app done none, .acknowledge now (.success command)]
  let dispatcher := ((new policy 0).performAll moves).1
  let settled : Entry := ⟨command, .settled (now.elapsed + policy.entryTtl), false⟩
  have found : dispatcher.entries.find? command.key = some settled := by
    have sent : ((new policy 0).perform (.dispatch now there app done none)).1 =
        (new policy 0).enter now command := rfl
    have acknowledged : dispatcher = (((new policy 0).enter now command).onAck now
        (.success command)).1 := by
      simp only [dispatcher, moves, performAll, sent]
      rfl
    have held : ((new policy 0).enter now command).handles.find? command.handle =
        some command.key := (SortedMap.find?_insert ..).trans (if_pos rfl)
    have entered : ((new policy 0).enter now command).entries.find? command.key =
        some ⟨command, .awaitingAck (now.elapsed + policy.ackTimeout), false⟩ :=
      (SortedMap.find?_insert ..).trans (if_pos rfl)
    rw [acknowledged]
    simp only [onAck, CommandAck.success, held, recordSuccess, entered, ne_eq, not_true_eq_false,
      if_false, Bool.false_eq_true, withState, SortedMap.find?_insert, if_true]
    rfl
  have indexed : dispatcher.Indexed :=
    (indexed_new policy 0).performAll (tracks_new policy 0) moves
  refine ⟨0, moves, now, app, none, command.handle, command, ?_, ?_, rfl, rfl⟩
  · rw [dispatch_eq_suppressed_iff]
    refine ⟨settled, ⟨?_, ⟨_, rfl, Nat.lt_add_of_pos_right remembers⟩, standsFor⟩, rfl⟩
    rw [← same]
    exact found
  · exact (command?_eq_some_iff indexed).mpr ⟨_, settled, found, rfl, rfl⟩

end Pairs

/--
In all its use, a dispatcher suppresses an action exactly while a command under the key of the
action is settled that stands for the action: a stop of all the instances that a stop names, and
anything else whether or not it has done what the action asks for. So everything stands for
everything that has its key, but for a stop that names other instances.
-/
theorem suppressed_iff (policy : RetryPolicy) :
    (∀ source moves now lattice app action result handle,
      let dispatcher := ((new policy source).performAll moves).1
      (dispatcher.dispatch now lattice app action result).answer = .ok (.suppressed handle) ↔
        ∃ entry, dispatcher.SuppressedBy now lattice action entry ∧
          dispatcher.command? handle = some entry.command) ∧
    (0 < policy.entryTtl → ∀ there done here next,
      Suppresses policy there done here next ↔
        done.idempotencyKey there = next.idempotencyKey here ∧ done.StandsFor next) := by
  have suppressed : ∀ source moves now lattice app action result handle,
      let dispatcher := ((new policy source).performAll moves).1
      (dispatcher.dispatch now lattice app action result).answer = .ok (.suppressed handle) ↔
        ∃ entry, dispatcher.SuppressedBy now lattice action entry ∧
          dispatcher.command? handle = some entry.command := by
    intro source moves now lattice app action result handle dispatcher
    have indexed : dispatcher.Indexed := indexed_performAll policy source moves
    rw [dispatch_eq_suppressed_iff]
    refine exists_congr fun entry => and_congr_right fun suppressed => ?_
    rw [command?_eq_some_iff indexed]
    constructor
    · rintro rfl
      exact ⟨_, entry, suppressed.1, rfl, rfl⟩
    · rintro ⟨_, _, _, _, named⟩
      exact named
  refine ⟨suppressed, fun remembers there done here next => ⟨?_, ?_⟩⟩
  · rintro ⟨source, moves, now, app, result, handle, command, answered, tracked, rfl, rfl⟩
    rcases (suppressed ..).mp answered with ⟨entry, ⟨found, _, standsFor⟩, held⟩
    obtain rfl : entry.command = command := Option.some.inj (held.symm.trans tracked)
    exact ⟨keyedByAction_performAll policy source moves _ entry found, standsFor⟩
  · rintro ⟨same, standsFor⟩
    exact suppresses_of_standsFor remembers same standsFor

/-- An update of an image is suppressed, since an instance of the former image was started. -/
theorem suppressed_iff_of_update :
    let start (image : String) : RequiredAction :=
      .startInstances ⟨"shop-api"⟩ .component image ⟨"host-a"⟩ ∅ 1
    0 < RetryPolicy.standard.entryTtl ∧
      Suppresses .standard ⟨"prod"⟩ (start "registry/api:1") ⟨"prod"⟩ (start "registry/api:2") := by
  intro start
  have remembers : 0 < RetryPolicy.standard.entryTtl := by decide
  refine ⟨remembers, ((suppressed_iff .standard).2 remembers _ _ _ _).mpr ⟨rfl, ?_⟩⟩
  exact fun isStop => ActionKind.noConfusion isStop

/-- The update of the image is suppressed, though nothing has started an instance of it. -/
theorem suppressed_though_unfulfilled :
    let start (image : String) : RequiredAction :=
      .startInstances ⟨"shop-api"⟩ .component image ⟨"host-a"⟩ ∅ 1
    let moves : List Move :=
      [.dispatch ⟨0, ⟨0, 0⟩⟩ ⟨"prod"⟩ ⟨"shop"⟩ (start "registry/api:1") none,
        .acknowledge ⟨100, ⟨0, 0⟩⟩ ⟨.ofNumbers 0 0, default, .success⟩]
    let dispatcher := ((new .standard 0).performAll moves).1
    let outcome := dispatcher.dispatch ⟨200, ⟨0, 0⟩⟩ ⟨"prod"⟩ ⟨"shop"⟩ (start "registry/api:2") none
    outcome.answer.toOption = some (.suppressed (.ofNumbers 0 0)) ∧
      ∀ command, dispatcher.command? (.ofNumbers 0 0) = some command →
        ¬command.action.Fulfils (start "registry/api:2") := by
  intro start moves dispatcher outcome
  refine ⟨by decide +kernel, ?_⟩
  have tracked : (dispatcher.command? (.ofNumbers 0 0)).map Command.action =
      some (start "registry/api:1") := by decide +kernel
  intro command found
  rw [found, Option.map_some, Option.some.injEq] at tracked
  rw [tracked]
  decide

end Dispatcher

end Reconciler
