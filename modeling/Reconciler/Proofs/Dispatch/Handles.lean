import Reconciler.Proofs.Dispatch.Attempts

/-!
# Handles of tracked commands

A dispatcher keeps a table of handles beside its entries, by which it finds the commands that
acknowledgements are about. The two are changed separately, but each is the inverse of the other:
`Dispatcher.Indexed` is kept by every step. A handle is given out only once, so that an
acknowledgement of a command that is no longer tracked finds nothing, then and ever after.
-/

namespace Reconciler

namespace Dispatcher

/-- The handle of the command that is tracked under a key. -/
def handleAt? (dispatcher : Dispatcher) (key : IdempotencyKey) : Option CommandHandle :=
  (dispatcher.entries.find? key).map fun entry => entry.command.handle

theorem handleAt?_eq_some_iff {dispatcher : Dispatcher} {key : IdempotencyKey}
    {handle : CommandHandle} :
    dispatcher.handleAt? key = some handle ↔
      ∃ entry, dispatcher.entries.find? key = some entry ∧ entry.command.handle = handle :=
  Option.map_eq_some_iff

/-- The handles are those of the tracked commands, each with the key of its command. -/
def Indexed (dispatcher : Dispatcher) : Prop :=
  ∀ handle key,
    dispatcher.handles.find? handle = some key ↔ dispatcher.handleAt? key = some handle

theorem indexed_new (policy : RetryPolicy) (source : Nat) : (new policy source).Indexed := by
  intro handle key
  constructor
  · intro found
    cases found
  · intro found
    cases found

theorem Tracks.handleAt?_ne_nextHandle {dispatcher : Dispatcher} {offered : List Command}
    (tracks : dispatcher.Tracks offered) (key : IdempotencyKey) :
    dispatcher.handleAt? key ≠ some dispatcher.nextHandle := by
  intro same
  rcases handleAt?_eq_some_iff.mp same with ⟨entry, found, named⟩
  exact tracks.ne_nextHandle entry.command (tracks.mem_offered found) named

namespace Indexed

variable {dispatcher next : Dispatcher} {offered more : List Command}

theorem eq_of_handleAt?_eq (indexed : dispatcher.Indexed) {first second : IdempotencyKey}
    {handle : CommandHandle} (firstHas : dispatcher.handleAt? first = some handle)
    (secondHas : dispatcher.handleAt? second = some handle) : first = second :=
  Option.some.inj (((indexed handle first).mpr firstHas).symm.trans
    ((indexed handle second).mpr secondHas))

theorem of_handleAt?_eq (indexed : dispatcher.Indexed) (handles : next.handles = dispatcher.handles)
    (same : ∀ key, next.handleAt? key = dispatcher.handleAt? key) : next.Indexed := by
  intro handle key
  rw [handles, same]
  exact indexed handle key

/-- A command that takes the place of another with the same handle changes no handle. -/
theorem replace (indexed : dispatcher.Indexed) {key : IdempotencyKey} {former entry : Entry}
    (found : dispatcher.entries.find? key = some former)
    (same : entry.command.handle = former.command.handle) :
    { dispatcher with entries := dispatcher.entries.insert key entry }.Indexed := by
  refine indexed.of_handleAt?_eq rfl fun other => ?_
  simp only [handleAt?, SortedMap.find?_insert]
  split
  · rename_i sameKey
    rw [sameKey, found, Option.map_some, Option.map_some, same]
  · rfl

/-- A key and a handle that belong together can be taken out together. -/
theorem erase (indexed : dispatcher.Indexed) {key : IdempotencyKey} {handle : CommandHandle}
    (held : dispatcher.handleAt? key = some handle)
    (handles : next.handles = dispatcher.handles.erase handle)
    (entries : ∀ other,
      next.handleAt? other = if other = key then none else dispatcher.handleAt? other) :
    next.Indexed := by
  intro named other
  rw [handles, entries, SortedMap.find?_erase]
  by_cases sameHandle : named = handle
  · subst sameHandle
    have notElsewhere : other ≠ key → dispatcher.handleAt? other ≠ some named :=
      fun different stillHeld => different (indexed.eq_of_handleAt?_eq stillHeld held)
    simpa using notElsewhere
  · by_cases sameKey : other = key
    · subst sameKey
      have notNamed : dispatcher.handles.find? named ≠ some other := by
        rw [ne_eq, indexed, held, Option.some.injEq]
        exact Ne.symm sameHandle
      simp [sameHandle, notNamed]
    · rw [if_neg sameHandle, if_neg sameKey]
      exact indexed named other

/-- A new handle can be put in for a key that has none. -/
theorem insert (indexed : dispatcher.Indexed) {key : IdempotencyKey} {handle : CommandHandle}
    (free : dispatcher.handleAt? key = none)
    (fresh : ∀ other, dispatcher.handleAt? other ≠ some handle)
    (handles : next.handles = dispatcher.handles.insert handle key)
    (entries : ∀ other,
      next.handleAt? other = if other = key then some handle else dispatcher.handleAt? other) :
    next.Indexed := by
  intro named other
  rw [handles, entries, SortedMap.find?_insert]
  by_cases sameHandle : named = handle
  · subst sameHandle
    rw [if_pos rfl, Option.some.injEq, eq_comm]
    split
    · rename_i sameKey
      exact iff_of_true sameKey rfl
    · rename_i different
      exact iff_of_false different (fresh other)
  · by_cases sameKey : other = key
    · subst sameKey
      have notNamed : dispatcher.handles.find? named ≠ some other := by
        rw [ne_eq, indexed, free]
        exact (Option.some_ne_none _).symm
      simp [sameHandle, notNamed, Ne.symm sameHandle]
    · rw [if_neg sameHandle, if_neg sameKey]
      exact indexed named other

theorem handleAt?_drop (dispatcher : Dispatcher) (handles : SortedMap CommandHandle IdempotencyKey)
    (key other : IdempotencyKey) :
    { dispatcher with
        entries := dispatcher.entries.erase key
        handles := handles }.handleAt? other =
      if other = key then none else dispatcher.handleAt? other := by
  simp only [handleAt?, SortedMap.find?_erase]
  split <;> rfl

theorem drop (indexed : dispatcher.Indexed) {key : IdempotencyKey} {entry : Entry}
    (found : dispatcher.entries.find? key = some entry) :
    { dispatcher with
        entries := dispatcher.entries.erase key
        handles := dispatcher.handles.erase entry.command.handle }.Indexed := by
  have held : dispatcher.handleAt? key = some entry.command.handle :=
    handleAt?_eq_some_iff.mpr ⟨entry, found, rfl⟩
  exact indexed.erase held rfl (handleAt?_drop dispatcher _ key)

theorem enter (indexed : dispatcher.Indexed) {now : Moment} {command : Command}
    (fresh : ∀ key, dispatcher.handleAt? key ≠ some command.handle) :
    (dispatcher.enter now command).Indexed := by
  have entries : ∀ key, (dispatcher.enter now command).handleAt? key =
      if key = command.key then some command.handle else dispatcher.handleAt? key := by
    intro key
    simp only [handleAt?, Dispatcher.enter, SortedMap.find?_insert]
    split <;> rfl
  cases found : dispatcher.entries.find? command.key with
  | none =>
      have free : dispatcher.handleAt? command.key = none := by
        rw [handleAt?, found, Option.map_none]
      refine indexed.insert free fresh ?_ entries
      simp only [Dispatcher.enter, found]
  | some former =>
      -- What has the key is taken out first.
      let cleared : Dispatcher :=
        { dispatcher with
          entries := dispatcher.entries.erase command.key
          handles := dispatcher.handles.erase former.command.handle }
      have left : ∀ key, cleared.handleAt? key =
          if key = command.key then none else dispatcher.handleAt? key :=
        handleAt?_drop dispatcher _ command.key
      have stillFresh : ∀ key, cleared.handleAt? key ≠ some command.handle := by
        intro key
        rw [left]
        split
        · exact (Option.some_ne_none _).symm
        · exact fresh key
      have stillIndexed : cleared.Indexed := indexed.drop found
      refine stillIndexed.insert ((left _).trans (if_pos rfl)) stillFresh ?_ ?_
      · simp only [Dispatcher.enter, found, cleared]
      · intro key
        rw [entries, left]
        split <;> rfl

theorem upkeepStep (indexed : dispatcher.Indexed) (step : UpkeepStep dispatcher more next) :
    next.Indexed := by
  cases step with
  | resend found waits issuedAt deadline => exact indexed.replace found rfl
  | record found allowed => exact indexed.replace found rfl
  | mark lattice component host =>
      refine indexed.of_handleAt?_eq rfl fun key => ?_
      simp only [handleAt?, SortedMap.find?_mapValues, Option.map_map]
      refine congrArg (fun change => Option.map change _) (funext fun entry => ?_)
      simp only [Function.comp, markObserved]
      split <;> rfl
  | drop found => exact indexed.drop found

theorem upkeep (indexed : dispatcher.Indexed) (upkeep : Upkeep dispatcher more next) :
    next.Indexed :=
  upkeep.keeps (motive := Indexed) (fun step indexed => indexed.upkeepStep step) indexed

theorem performAll (indexed : dispatcher.Indexed) (tracks : dispatcher.Tracks offered)
    (moves : List Move) : (dispatcher.performAll moves).1.Indexed := by
  refine tracks.performAll_induction (motive := Indexed)
    (fun step indexed => indexed.upkeepStep step) ?_ indexed moves
  intro former more now command formerTracks entering formerIndexed
  exact formerIndexed.enter (entering.handle ▸ formerTracks.handleAt?_ne_nextHandle)

/-- A handle that no tracked command has is not in the table. -/
theorem find?_handles_eq_none (indexed : dispatcher.Indexed) {handle : CommandHandle}
    (untracked : ∀ key, dispatcher.handleAt? key ≠ some handle) :
    dispatcher.handles.find? handle = none := by
  cases held : dispatcher.handles.find? handle with
  | none => rfl
  | some key => exact absurd ((indexed handle key).mp held) (untracked key)

theorem handles_eq_empty (indexed : dispatcher.Indexed) (none : dispatcher.entries = ∅) :
    dispatcher.handles = ∅ := by
  refine SortedMap.ext_find? fun handle => indexed.find?_handles_eq_none fun key held => ?_
  rw [handleAt?, none] at held
  cases held

/-- There are as many handles as tracked commands. -/
theorem size_handles (indexed : dispatcher.Indexed) :
    dispatcher.handles.size = dispatcher.entries.size :=
  SortedMap.size_eq_of_inverse indexed

/-- An acknowledgement finds nothing under a handle that no tracked command has. -/
theorem onAck_of_untracked (indexed : dispatcher.Indexed) {ack : CommandAck}
    (untracked : ∀ key, dispatcher.handleAt? key ≠ some ack.handle) (now : Moment) :
    dispatcher.onAck now ack = (dispatcher, .error (.unknownHandle ack.handle)) := by
  rw [onAck, indexed.find?_handles_eq_none untracked]

end Indexed

/-- However a dispatcher is used, its handles are those of the commands that it tracks. -/
theorem indexed_performAll (policy : RetryPolicy) (source : Nat) (moves : List Move) :
    ((new policy source).performAll moves).1.Indexed :=
  (indexed_new policy source).performAll (tracks_new policy source) moves

/-! ### Handles that are gone -/

/--
Whatever is tracked under a handle was tracked under it before, with the same key, and has kept its
mark if it had one.
-/
def Descends (former next : Dispatcher) (handle : CommandHandle) : Prop :=
  ∀ key entry, next.entries.find? key = some entry → entry.command.handle = handle →
    ∃ older, former.entries.find? key = some older ∧ older.command.handle = handle ∧
      (older.observed = true → entry.observed = true)

namespace Descends

variable {dispatcher former next : Dispatcher} {offered more : List Command}
  {handle : CommandHandle}

theorem refl (dispatcher : Dispatcher) (handle : CommandHandle) :
    dispatcher.Descends dispatcher handle :=
  fun _ entry found named => ⟨entry, found, named, id⟩

theorem upkeepStep (descends : dispatcher.Descends former handle)
    (step : UpkeepStep former more next) : dispatcher.Descends next handle := by
  intro key entry found named
  rcases step.exists_former found with ⟨parent, _, _, parentFound, same, keepsMark⟩
  rw [same] at named
  rcases descends key parent parentFound named with ⟨older, olderFound, olderNamed, kept⟩
  exact ⟨older, olderFound, olderNamed, keepsMark ∘ kept⟩

theorem enter (descends : dispatcher.Descends former handle) (now : Moment) {command : Command}
    (other : command.handle ≠ handle) : dispatcher.Descends (former.enter now command) handle := by
  intro key entry found named
  rw [Dispatcher.enter, SortedMap.find?_insert] at found
  split at found
  · obtain rfl := Option.some.inj found
    exact absurd named other
  · exact descends key entry found named

end Descends

theorem Upkeep.descends {dispatcher next : Dispatcher} {offered : List Command}
    (upkeep : Upkeep dispatcher offered next) (handle : CommandHandle) :
    dispatcher.Descends next handle :=
  upkeep.keeps (motive := fun next => dispatcher.Descends next handle)
    (fun step descends => descends.upkeepStep step) (.refl dispatcher handle)

/-- A handle under which something was offered once comes to no other command. -/
theorem Tracks.descends {dispatcher : Dispatcher} {offered : List Command}
    (tracks : dispatcher.Tracks offered) {handle : CommandHandle}
    (old : ∃ earlier ∈ offered, earlier.handle = handle) (moves : List Move) :
    dispatcher.Descends (dispatcher.performAll moves).1 handle := by
  refine tracks.performAll_induction (motive := fun next => dispatcher.Descends next handle)
    (fun step descends => descends.upkeepStep step) ?_ (.refl dispatcher handle) moves
  intro former more now command formerTracks entering descends
  rcases old with ⟨earlier, member, rfl⟩
  refine descends.enter now fun same => ?_
  exact formerTracks.ne_nextHandle earlier (List.mem_append_left _ member)
    (same.symm.trans entering.handle)

namespace Tracks

variable {dispatcher : Dispatcher} {offered : List Command} {command : Command}

/-- A command that was offered is tracked under its own key or not at all. -/
theorem key_of_handleAt?_eq (tracks : dispatcher.Tracks offered) (member : command ∈ offered)
    {key : IdempotencyKey} (held : dispatcher.handleAt? key = some command.handle) :
    key = command.key := by
  rcases handleAt?_eq_some_iff.mp held with ⟨entry, found, named⟩
  have tracked : entry.command ∈ Command.withHandle command.handle offered :=
    List.mem_filter.mpr ⟨tracks.mem_offered found, decide_eq_true named⟩
  have itself : command ∈ Command.withHandle command.handle offered :=
    List.mem_filter.mpr ⟨member, decide_eq_true rfl⟩
  have sameRequest := (tracks.series command.handle).request _ tracked _ itself
  exact (tracks.key found).symm.trans (congrArg Prod.fst sameRequest)

/-- A command that was offered and has made way, or was dropped, does not come back. -/
theorem untracked_performAll (tracks : dispatcher.Tracks offered) (member : command ∈ offered)
    (gone : dispatcher.handleAt? command.key ≠ some command.handle) (moves : List Move)
    (key : IdempotencyKey) :
    (dispatcher.performAll moves).1.handleAt? key ≠ some command.handle := by
  intro held
  rcases handleAt?_eq_some_iff.mp held with ⟨entry, found, named⟩
  rcases tracks.descends ⟨command, member, rfl⟩ moves key entry found named with
    ⟨older, olderFound, olderNamed, -⟩
  have heldBefore : dispatcher.handleAt? key = some command.handle :=
    handleAt?_eq_some_iff.mpr ⟨older, olderFound, olderNamed⟩
  exact gone (tracks.key_of_handleAt?_eq member heldBefore ▸ heldBefore)

end Tracks

/--
However a dispatcher is used, and whatever the transport answers: a handle stands for a key exactly
if the command under the key has both, and there are as many handles as commands. A command that was
offered and is no longer the one under its key, as it was replaced or dropped, is gone for good: an
acknowledgement of it is answered with an unknown handle at any later time, and changes nothing.
-/
theorem tables_in_step (policy : RetryPolicy) (source : Nat) (moves more : List Move) :
    let dispatcher := ((new policy source).performAll moves).1
    let offered := ((new policy source).performAll moves).2
    let later := (dispatcher.performAll more).1
    (∀ handle key, dispatcher.handles.find? handle = some key ↔
      ∃ entry, dispatcher.entries.find? key = some entry ∧ entry.command.handle = handle ∧
        entry.command.key = key) ∧
    dispatcher.handles.size = dispatcher.entries.size ∧
    ∀ command ∈ offered,
      (∀ entry, dispatcher.entries.find? command.key = some entry →
        entry.command.handle ≠ command.handle) →
      ∀ now ack, ack.handle = command.handle →
        later.onAck now ack = (later, .error (.unknownHandle command.handle)) := by
  intro dispatcher offered later
  have tracks : dispatcher.Tracks offered := tracks_performAll policy source moves
  have indexed : dispatcher.Indexed := indexed_performAll policy source moves
  refine ⟨?_, indexed.size_handles, ?_⟩
  · intro handle key
    rw [indexed handle key, handleAt?_eq_some_iff]
    refine exists_congr fun entry => and_congr_right fun found => ?_
    exact (and_iff_left (tracks.key found)).symm
  · intro command member gone now ack named
    have notHeld : dispatcher.handleAt? command.key ≠ some command.handle := by
      intro held
      rcases handleAt?_eq_some_iff.mp held with ⟨entry, found, same⟩
      exact gone entry found same
    rw [← named] at notHeld ⊢
    have untracked := tracks.untracked_performAll member (named ▸ notHeld) more
    exact (indexed.performAll tracks more).onAck_of_untracked (named ▸ untracked) now

/-- A stop that a lost transport has ended makes way for the next one, which is then dropped. -/
theorem tables_in_step_of_replaced :
    let stop : RequiredAction := .stopInstances ⟨"shop-api"⟩ ⟨"host-a"⟩ [⟨"i-1"⟩]
    let first : Command := .new (.ofNumbers 0 0) ⟨0, 0⟩ ⟨"prod"⟩ ⟨"shop"⟩ stop
    let moves : List Move :=
      [.dispatch ⟨0, ⟨0, 0⟩⟩ ⟨"prod"⟩ ⟨"shop"⟩ stop (some (.fatal "closed")),
        .dispatch ⟨100, ⟨0, 0⟩⟩ ⟨"prod"⟩ ⟨"shop"⟩ stop none]
    let more : List Move :=
      [.observe ⟨"prod"⟩ ⟨"shop-api"⟩ none, .sweep ⟨20000, ⟨20, 0⟩⟩ fun _ => none]
    let dispatcher := ((new .standard 0).performAll moves).1
    let later := (dispatcher.performAll more).1
    first ∈ ((new .standard 0).performAll moves).2 ∧
      (dispatcher.handleAt? first.key = some (.ofNumbers 0 1) ∧ dispatcher.handles.size = 1) ∧
      later.handles.size = 0 ∧
      later.onAck ⟨20100, ⟨20, 0⟩⟩ (.success first) =
        (later, .error (.unknownHandle first.handle)) := by
  intro stop first moves more dispatcher later
  have offered : first ∈ ((new .standard 0).performAll moves).2 := by decide +kernel
  have replaced : dispatcher.handleAt? first.key = some (.ofNumbers 0 1) := by decide +kernel
  refine ⟨offered, ⟨replaced, by decide +kernel⟩, by decide +kernel, ?_⟩
  refine (tables_in_step .standard 0 moves more).2.2 first offered ?_ _ _ rfl
  intro entry found same
  rw [handleAt?, found, Option.map_some, same] at replaced
  exact absurd replaced (by decide)

end Dispatcher

end Reconciler
