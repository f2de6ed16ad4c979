import Mathlib.Data.List.Basic
import Reconciler.Proofs.Dispatch.Upkeep

/-!
# Series of attempts

The commands that are offered to the transport under one handle are the attempts at one request,
numbered from one without gap, and no more of them than the retry policy allows. New handles are
given out for a key only while no command with the key is under way, so that no two commands are
under way for one key. `Dispatcher.Tracks` relates what a dispatcher tracks to all the commands that
it has offered; every move keeps it.
-/

namespace Reconciler

theorem CommandHandle.ofNumbers_injective {source first second : Nat}
    (same : ofNumbers source first = ofNumbers source second) : first = second := by
  simp only [ofNumbers, CommandHandle.mk.injEq, Uuid.mk.injEq] at same
  omega

namespace RetryPolicy

/-- The number of times that a command is offered at most; the first time is always allowed. -/
def attemptLimit (policy : RetryPolicy) : Nat :=
  max 1 policy.maxAttempts.toNat

theorem lt_maxAttempts {policy : RetryPolicy} {attempt : UInt32}
    (left : policy.isExhausted attempt = false) : attempt.toNat < policy.maxAttempts.toNat := by
  rw [isExhausted, decide_eq_false_iff_not, UInt32.not_le] at left
  exact UInt32.lt_iff_toNat_lt.mp left

end RetryPolicy

namespace Command

/-- What a command asks for, whichever attempt it is. -/
def request (command : Command) : IdempotencyKey × LatticeId × AppName × Labels × RequiredAction :=
  (command.key, command.lattice, command.app, command.annotations, command.action)

/-- The commands of a list that have a handle. -/
def withHandle (handle : CommandHandle) (commands : List Command) : List Command :=
  commands.filter fun command => command.handle = handle

/-- The first attempts at one request, in order and without gap. -/
structure IsSeries (limit : Nat) (commands : List Command) : Prop where
  request : ∀ first ∈ commands, ∀ second ∈ commands, first.request = second.request
  attempts : (commands.map fun command => command.attempt.toNat) = List.range' 1 commands.length
  length_le : commands.length ≤ limit

namespace IsSeries

variable {limit : Nat} {commands : List Command} {command : Command}

theorem nil (limit : Nat) : IsSeries limit [] :=
  ⟨by simp, rfl, Nat.zero_le _⟩

theorem singleton (first : command.attempt = 1) (positive : 1 ≤ limit) :
    IsSeries limit [command] := by
  refine ⟨by simp, ?_, positive⟩
  simp [first]

/-- The last attempt of a series has the number of all its attempts. -/
theorem attempt_last (series : IsSeries limit commands)
    (last : commands.getLast? = some command) : command.attempt.toNat = commands.length := by
  have nonempty : 0 < commands.length :=
    List.length_pos_of_mem (List.mem_of_getLast? last)
  have mapped := congrArg List.getLast? series.attempts
  rw [List.getLast?_map, last, List.getLast?_range', if_neg (by omega)] at mapped
  simp only [Option.map_some, Option.some.injEq] at mapped
  omega

/-- One more attempt continues a series. -/
theorem concat (series : IsSeries limit commands) (last : commands.getLast? = some command)
    (left : command.attempt.toNat < limit) (bounded : command.attempt.toNat + 1 < UInt32.size)
    (issuedAt : Timestamp) : IsSeries limit (commands ++ [command.again issuedAt]) := by
  have length := series.attempt_last last
  have sameRequest : ∀ other ∈ commands, other.request = (command.again issuedAt).request :=
    fun other member => series.request other member command (List.mem_of_getLast? last)
  refine ⟨?_, ?_, ?_⟩
  · intro first firstMember second secondMember
    rw [List.mem_append, List.mem_singleton] at firstMember secondMember
    have firstSame : first.request = (command.again issuedAt).request :=
      firstMember.elim (sameRequest first) fun same => same ▸ rfl
    have secondSame : second.request = (command.again issuedAt).request :=
      secondMember.elim (sameRequest second) fun same => same ▸ rfl
    exact firstSame.trans secondSame.symm
  · have next : (command.attempt + 1).toNat = 1 + commands.length := by
      rw [UInt32.toNat_add, ← length]
      change (command.attempt.toNat + 1) % UInt32.size = _
      rw [Nat.mod_eq_of_lt bounded, Nat.add_comm]
    simp [series.attempts, again, next, List.range'_concat]
  · rw [List.length_append, List.length_singleton]
    omega

end IsSeries

theorem withHandle_append_of_ne {handle : CommandHandle} {command : Command}
    (other : command.handle ≠ handle) (offered : List Command) :
    withHandle handle (offered ++ [command]) = withHandle handle offered := by
  simp [withHandle, other]

theorem withHandle_append_self (offered : List Command) (command : Command) :
    withHandle command.handle (offered ++ [command]) =
      withHandle command.handle offered ++ [command] := by
  simp [withHandle]

end Command

namespace Dispatcher

/-- Whether a command with a handle and a key is under way. -/
def IsUnderWay (dispatcher : Dispatcher) (handle : CommandHandle) (key : IdempotencyKey) : Prop :=
  ∃ slot entry, dispatcher.entries.find? slot = some entry ∧ entry.isInFlight = true ∧
    entry.command.handle = handle ∧ entry.command.key = key

/-- A dispatcher tracks, under its key, the last command that it has offered under each handle. -/
structure Tracks (dispatcher : Dispatcher) (offered : List Command) : Prop where
  key : ∀ {key entry}, dispatcher.entries.find? key = some entry → entry.command.key = key
  latest : ∀ {key entry}, dispatcher.entries.find? key = some entry →
    (Command.withHandle entry.command.handle offered).getLast? = some entry.command
  minted : ∀ command ∈ offered, ∃ number < dispatcher.minted,
    command.handle = .ofNumbers dispatcher.source number
  waiting : ∀ {key entry retryAt}, dispatcher.entries.find? key = some entry →
    entry.state = .backoff retryAt →
    dispatcher.policy.isExhausted entry.command.attempt = false
  series : ∀ handle,
    Command.IsSeries dispatcher.policy.attemptLimit (Command.withHandle handle offered)

theorem tracks_new (policy : RetryPolicy) (source : Nat) : (new policy source).Tracks [] where
  key found := by cases found
  latest found := by cases found
  minted _ member := by cases member
  waiting found := by cases found
  series _ := .nil _

namespace Tracks

variable {dispatcher next : Dispatcher} {offered more : List Command} {command : Command}

theorem keyed (tracks : dispatcher.Tracks offered) (key : IdempotencyKey) (entry : Entry)
    (found : dispatcher.entries.find? key = some entry) : entry.command.key = key :=
  tracks.key found

theorem mem_offered (tracks : dispatcher.Tracks offered) {key : IdempotencyKey} {entry : Entry}
    (found : dispatcher.entries.find? key = some entry) : entry.command ∈ offered :=
  List.mem_of_mem_filter (List.mem_of_getLast? (tracks.latest found))

theorem eq_of_handle_eq (tracks : dispatcher.Tracks offered) {firstKey secondKey : IdempotencyKey}
    {first second : Entry} (firstFound : dispatcher.entries.find? firstKey = some first)
    (secondFound : dispatcher.entries.find? secondKey = some second)
    (same : first.command.handle = second.command.handle) : firstKey = secondKey := by
  have sameCommand : first.command = second.command := by
    apply Option.some.inj
    rw [← tracks.latest firstFound, ← tracks.latest secondFound, same]
  rw [← tracks.key firstFound, ← tracks.key secondFound, sameCommand]

/-- The handle given out next is that of no command offered before. -/
theorem ne_nextHandle (tracks : dispatcher.Tracks offered) :
    ∀ earlier ∈ offered, earlier.handle ≠ dispatcher.nextHandle := by
  intro earlier member same
  rcases tracks.minted earlier member with ⟨number, smaller, named⟩
  have : number = dispatcher.minted := CommandHandle.ofNumbers_injective (named.symm.trans same)
  omega

/-- A new command begins a series of its own. -/
theorem enter (tracks : dispatcher.Tracks offered) {now : Moment}
    (entering : dispatcher.Entering now command) :
    (dispatcher.enter now command).Tracks (offered ++ [command]) := by
  have fresh : ∀ earlier ∈ offered, earlier.handle ≠ command.handle :=
    entering.handle ▸ tracks.ne_nextHandle
  have nothing : Command.withHandle command.handle offered = [] := by
    rw [Command.withHandle, List.filter_eq_nil_iff]
    simpa using fresh
  -- The entry under a key is the new one, or one that was there before under another handle.
  have entries : ∀ {key entry}, (dispatcher.enter now command).entries.find? key = some entry →
      (key = command.key ∧ entry.command = command ∧
        ∀ retryAt, entry.state ≠ .backoff retryAt) ∨
      dispatcher.entries.find? key = some entry := by
    intro key entry found
    simp only [Dispatcher.enter, SortedMap.find?_insert] at found
    split at found
    · rename_i same
      obtain rfl := Option.some.inj found
      exact Or.inl ⟨same, rfl, fun retryAt => EntryState.noConfusion⟩
    · exact Or.inr found
  refine ⟨?_, ?_, ?_, ?_, ?_⟩
  · intro key entry found
    rcases entries found with ⟨rfl, same, _⟩ | found
    · rw [same]
    · exact tracks.key found
  · intro key entry found
    rcases entries found with ⟨rfl, same, _⟩ | found
    · rw [same, Command.withHandle_append_self, List.getLast?_concat]
    · rw [Command.withHandle_append_of_ne (fresh _ (tracks.mem_offered found)).symm]
      exact tracks.latest found
  · intro other member
    rcases List.mem_append.mp member with old | new
    · rcases tracks.minted other old with ⟨number, smaller, named⟩
      exact ⟨number, Nat.lt_succ_of_lt smaller, named⟩
    · rw [List.mem_singleton.mp new]
      exact ⟨dispatcher.minted, Nat.lt_succ_self _, entering.handle⟩
  · intro key entry retryAt found waits
    rcases entries found with ⟨_, _, notWaiting⟩ | found
    · exact absurd waits (notWaiting retryAt)
    · exact tracks.waiting found waits
  · intro handle
    by_cases same : command.handle = handle
    · subst same
      rw [Command.withHandle_append_self, nothing]
      exact .singleton entering.attempt (Nat.le_max_left _ _)
    · rw [Command.withHandle_append_of_ne same]
      exact tracks.series handle

/-- A command that is offered once more continues its series. -/
theorem resend (tracks : dispatcher.Tracks offered) {key : IdempotencyKey} {entry : Entry}
    {retryAt : Nat} (found : dispatcher.entries.find? key = some entry)
    (waits : entry.state = .backoff retryAt) (issuedAt : Timestamp) (deadline : Nat) :
    { dispatcher with
        entries := dispatcher.entries.insert key
          { entry with
            command := entry.command.again issuedAt
            state := .awaitingAck deadline } }.Tracks
      (offered ++ [entry.command.again issuedAt]) := by
  have left := RetryPolicy.lt_maxAttempts (tracks.waiting found waits)
  have continued := (tracks.series entry.command.handle).concat (tracks.latest found)
    (Nat.lt_of_lt_of_le left (Nat.le_max_right _ _))
    (Nat.lt_of_le_of_lt left dispatcher.policy.maxAttempts.toNat_lt) issuedAt
  have own := Command.withHandle_append_self offered (entry.command.again issuedAt)
  refine ⟨?_, ?_, ?_, ?_, ?_⟩
  · intro other _ foundOther
    rw [SortedMap.find?_insert] at foundOther
    split at foundOther
    · rename_i same
      obtain rfl := Option.some.inj foundOther
      exact (tracks.key found).trans same.symm
    · exact tracks.key foundOther
  · intro other _ foundOther
    rw [SortedMap.find?_insert] at foundOther
    split at foundOther
    · obtain rfl := Option.some.inj foundOther
      rw [own, List.getLast?_concat]
    · rename_i different
      rw [Command.withHandle_append_of_ne]
      · exact tracks.latest foundOther
      · intro sameHandle
        exact different (tracks.eq_of_handle_eq found foundOther sameHandle).symm
  · intro other member
    rcases List.mem_append.mp member with old | again
    · exact tracks.minted other old
    · rw [List.mem_singleton.mp again]
      exact tracks.minted entry.command (tracks.mem_offered found)
  · intro other _ _ foundOther waitsOther
    rw [SortedMap.find?_insert] at foundOther
    split at foundOther
    · obtain rfl := Option.some.inj foundOther
      exact EntryState.noConfusion waitsOther
    · exact tracks.waiting foundOther waitsOther
  · intro handle
    by_cases same : entry.command.handle = handle
    · subst same
      exact own ▸ continued
    · have different : (entry.command.again issuedAt).handle ≠ handle := same
      rw [Command.withHandle_append_of_ne different]
      exact tracks.series handle

/--
A dispatcher that has the same handles to give out, and tracks no other commands, goes on tracking
what was offered.
-/
theorem of_entries (tracks : dispatcher.Tracks offered) (policy : next.policy = dispatcher.policy)
    (source : next.source = dispatcher.source) (minted : next.minted = dispatcher.minted)
    (entries : ∀ {key entry}, next.entries.find? key = some entry →
      ∃ former, dispatcher.entries.find? key = some former ∧ entry.command = former.command ∧
        ∀ retryAt, entry.state = .backoff retryAt →
          dispatcher.policy.isExhausted former.command.attempt = false) :
    next.Tracks offered := by
  refine ⟨?_, ?_, ?_, ?_, ?_⟩
  · intro key entry found
    rcases entries found with ⟨former, formerFound, same, _⟩
    exact same ▸ tracks.key formerFound
  · intro key entry found
    rcases entries found with ⟨former, formerFound, same, _⟩
    exact same ▸ tracks.latest formerFound
  · rw [source, minted]
    exact tracks.minted
  · intro key entry retryAt found waits
    rcases entries found with ⟨former, _, same, allowed⟩
    rw [policy, same]
    exact allowed retryAt waits
  · rw [policy]
    exact tracks.series

theorem upkeepStep (tracks : dispatcher.Tracks offered)
    (step : UpkeepStep dispatcher more next) : next.Tracks (offered ++ more) := by
  cases step with
  | resend found waits issuedAt deadline => exact tracks.resend found waits issuedAt deadline
  | @record key entry state found allowed =>
      rw [List.append_nil]
      refine tracks.of_entries rfl rfl rfl ?_
      intro other _ foundOther
      simp only [withState, SortedMap.find?_insert] at foundOther
      split at foundOther
      · rename_i same
        obtain rfl := Option.some.inj foundOther
        exact ⟨entry, same ▸ found, rfl, allowed⟩
      · exact ⟨_, foundOther, rfl, fun retryAt => tracks.waiting foundOther⟩
  | mark lattice component host =>
      rw [List.append_nil]
      refine tracks.of_entries rfl rfl rfl ?_
      intro key entry found
      rw [SortedMap.find?_mapValues, Option.map_eq_some_iff] at found
      rcases found with ⟨former, found, rfl⟩
      refine ⟨former, found, ?_⟩
      rw [markObserved]
      split <;> exact ⟨rfl, fun retryAt waits => tracks.waiting found waits⟩
  | drop found =>
      rw [List.append_nil]
      refine tracks.of_entries rfl rfl rfl ?_
      intro other entry foundOther
      rw [SortedMap.find?_erase] at foundOther
      split at foundOther
      · cases foundOther
      · exact ⟨entry, foundOther, rfl, fun retryAt => tracks.waiting foundOther⟩

theorem upkeep (tracks : dispatcher.Tracks offered) (upkeep : Upkeep dispatcher more next) :
    next.Tracks (offered ++ more) := by
  induction upkeep generalizing offered with
  | refl _ =>
      rw [List.append_nil]
      exact tracks
  | head step _ ih =>
      rw [← List.append_assoc]
      exact ih (tracks.upkeepStep step)

theorem perform (tracks : dispatcher.Tracks offered) (move : Move) :
    (dispatcher.perform move).1.Tracks (offered ++ (dispatcher.perform move).2) := by
  rcases dispatcher.perform_cases move with upkeep | ⟨now, command, entering, offers, upkeep⟩
  · exact tracks.upkeep upkeep
  · rw [offers]
    have last := (tracks.enter entering).upkeep upkeep
    rwa [List.append_nil] at last

theorem performAll (tracks : dispatcher.Tracks offered) (moves : List Move) :
    (dispatcher.performAll moves).1.Tracks (offered ++ (dispatcher.performAll moves).2) := by
  induction moves generalizing dispatcher offered with
  | nil => simpa [Dispatcher.performAll] using tracks
  | cons move moves ih =>
      simp only [Dispatcher.performAll, ← List.append_assoc]
      exact ih (tracks.perform move)

/-- What upkeep keeps, and what the entry of a new command keeps, is kept by all moves. -/
theorem performAll_induction {motive : Dispatcher → Prop} (tracks : dispatcher.Tracks offered)
    (step : ∀ {former next more}, UpkeepStep former more next → motive former → motive next)
    (enter : ∀ {former more now command}, former.Tracks (offered ++ more) →
      former.Entering now command → motive former → motive (former.enter now command))
    (holds : motive dispatcher) (moves : List Move) : motive (dispatcher.performAll moves).1 := by
  induction moves generalizing dispatcher offered with
  | nil => exact holds
  | cons move moves ih =>
      refine ih (tracks.perform move) (fun formerTracks => ?_) ?_
      · rw [List.append_assoc] at formerTracks
        exact enter formerTracks
      · rcases dispatcher.perform_cases move with upkeep | ⟨now, command, entering, _, upkeep⟩
        · exact upkeep.keeps step holds
        · have startTracks : dispatcher.Tracks (offered ++ []) := by
            rwa [List.append_nil]
          exact upkeep.keeps step (enter startTracks entering holds)

/-- At most one command is under way for a key. -/
theorem handle_unique (tracks : dispatcher.Tracks offered) {first second : CommandHandle}
    {key : IdempotencyKey} (firstUnderWay : dispatcher.IsUnderWay first key)
    (secondUnderWay : dispatcher.IsUnderWay second key) : first = second := by
  rcases firstUnderWay with ⟨firstSlot, firstEntry, firstFound, _, rfl, firstKey⟩
  rcases secondUnderWay with ⟨secondSlot, secondEntry, secondFound, _, rfl, secondKey⟩
  obtain rfl : firstSlot = key := (tracks.key firstFound).symm.trans firstKey
  obtain rfl : secondSlot = firstSlot := (tracks.key secondFound).symm.trans secondKey
  rw [Option.some.inj (firstFound.symm.trans secondFound)]

theorem not_isUnderWay (tracks : dispatcher.Tracks offered) {now : Moment}
    (entering : dispatcher.Entering now command) (handle : CommandHandle) :
    ¬dispatcher.IsUnderWay handle command.key := by
  rintro ⟨slot, entry, found, inFlight, _, sameKey⟩
  obtain rfl : slot = command.key := (tracks.key found).symm.trans sameKey
  exact Bool.false_ne_true ((entering.free entry found).symm.trans inFlight)

/-- Upkeep offers commands only under handles under which commands were offered before. -/
theorem offered_before (tracks : dispatcher.Tracks offered) (upkeep : Upkeep dispatcher more next) :
    ∀ command ∈ more, ∃ earlier ∈ offered, earlier.handle = command.handle := by
  induction upkeep generalizing offered with
  | refl _ => exact fun _ member => absurd member List.not_mem_nil
  | @head dispatcher next last first rest step _ ih =>
      have stepOffers : ∀ command ∈ first,
          ∃ earlier ∈ offered, earlier.handle = command.handle := by
        cases step with
        | resend found waits issuedAt deadline =>
            exact List.forall_mem_singleton.mpr ⟨_, tracks.mem_offered found, rfl⟩
        | record found allowed => exact fun _ member => absurd member List.not_mem_nil
        | mark lattice component host => exact fun _ member => absurd member List.not_mem_nil
        | drop found => exact fun _ member => absurd member List.not_mem_nil
      refine List.forall_mem_append.mpr ⟨stepOffers, fun command member => ?_⟩
      rcases ih (tracks.upkeepStep step) command member with ⟨earlier, earlierMember, same⟩
      rcases List.mem_append.mp earlierMember with old | ofStep
      · exact ⟨earlier, old, same⟩
      · exact same ▸ stepOffers earlier ofStep

/-- A command under a new handle is offered only while no command with its key is under way. -/
theorem not_isUnderWay_of_new (tracks : dispatcher.Tracks offered) {move : Move}
    (member : command ∈ (dispatcher.perform move).2)
    (isNew : ∀ earlier ∈ offered, earlier.handle ≠ command.handle) (handle : CommandHandle) :
    ¬dispatcher.IsUnderWay handle command.key := by
  rcases dispatcher.perform_cases move with upkeep | ⟨now, entered, entering, offers, _⟩
  · rcases tracks.offered_before upkeep command member with ⟨earlier, earlierMember, same⟩
    exact absurd same (isNew earlier earlierMember)
  · rw [offers, List.mem_singleton] at member
    subst member
    exact tracks.not_isUnderWay entering handle

end Tracks

/-- However a dispatcher is used, it tracks what it has offered. -/
theorem tracks_performAll (policy : RetryPolicy) (source : Nat) (moves : List Move) :
    ((new policy source).performAll moves).1.Tracks ((new policy source).performAll moves).2 :=
  (tracks_new policy source).performAll moves

theorem performAll_policy (dispatcher : Dispatcher) (moves : List Move) :
    (dispatcher.performAll moves).1.policy = dispatcher.policy := by
  induction moves generalizing dispatcher with
  | nil => rfl
  | cons move moves ih =>
      refine (ih (dispatcher.perform move).1).trans ?_
      rcases dispatcher.perform_cases move with upkeep | ⟨now, command, _, _, upkeep⟩
      · exact upkeep.policy_eq
      · exact upkeep.policy_eq

/--
However a dispatcher is used, and whatever the transport answers: at most one command is under way
for a key; a command is offered under a new handle only while none with its key is under way; and
what is offered under one handle are the attempts at one request, numbered from one without gap, at
most as many as the policy allows.
-/
theorem offered_in_series (policy : RetryPolicy) (source : Nat) (moves : List Move) :
    let dispatcher := ((new policy source).performAll moves).1
    let offered := ((new policy source).performAll moves).2
    (∀ first second key, dispatcher.IsUnderWay first key → dispatcher.IsUnderWay second key →
      first = second) ∧
    (∀ move, ∀ command ∈ (dispatcher.perform move).2,
      (∀ earlier ∈ offered, earlier.handle ≠ command.handle) →
      ∀ handle, ¬dispatcher.IsUnderWay handle command.key) ∧
    ∀ handle, Command.IsSeries (max 1 policy.maxAttempts.toNat)
      (Command.withHandle handle offered) := by
  intro dispatcher offered
  have tracks : dispatcher.Tracks offered := tracks_performAll policy source moves
  refine ⟨?_, ?_, ?_⟩
  · exact fun first second key => tracks.handle_unique
  · exact fun move command member isNew => tracks.not_isUnderWay_of_new member isNew
  · have series := tracks.series
    rw [performAll_policy] at series
    exact series

/-- A stop meets a busy transport and is offered once more half a second later. -/
theorem offered_in_series_of_busy :
    let stop : RequiredAction := .stopInstances ⟨"shop-api"⟩ ⟨"host-a"⟩ [⟨"i-1"⟩]
    let moves : List Move :=
      [.dispatch ⟨0, ⟨0, 0⟩⟩ ⟨"prod"⟩ ⟨"shop"⟩ stop (some (.transient "busy")),
        .dispatch ⟨1, ⟨0, 0⟩⟩ ⟨"prod"⟩ ⟨"shop"⟩ stop none,
        .sweep ⟨500, ⟨1, 0⟩⟩ fun _ => none]
    let offered := ((new .standard 0).performAll moves).2
    (offered.map fun command => command.attempt) = [1, 2] ∧
      Command.IsSeries 5 (Command.withHandle (.ofNumbers 0 0) offered) := by
  intro stop moves offered
  have attempts : (offered.map fun command => command.attempt) = [1, 2] := by decide +kernel
  exact ⟨attempts, (offered_in_series .standard 0 moves).2.2 (.ofNumbers 0 0)⟩

end Dispatcher

end Reconciler
