import Reconciler.Proofs.Dispatch.Observations

/-!
# Observations while a sweep is under way

When a sweep begins, it makes a list of the commands that it is to send again, and then offers them
one after the other. While it waits for the transport other calls come in between, so that a command
may be observed that is on the list already. That is the only way in which a command is still
offered after it was observed.
-/

namespace Reconciler

namespace Dispatcher

/-- What sweeps under way have left on their lists: when a sweep has begun, and a key. -/
abbrev Agenda : Type :=
  List (Moment × IdempotencyKey)

/-- Whether a move offers nothing again that is on no list. -/
def Move.IsOn (agenda : Agenda) : Move → Prop
  | .reenter start _ key => (start, key) ∈ agenda
  | _ => True

instance decidableIsOn (agenda : Agenda) : (move : Move) → Decidable (move.IsOn agenda)
  | .reenter start _ key => inferInstanceAs (Decidable ((start, key) ∈ agenda))
  | .dispatch .. | .acknowledge .. | .sweep .. | .observe .. | .propose .. | .beginSweep _
  | .conclude .. => .isTrue trivial

/-- What is on the lists after a move. -/
def agendaAfter (dispatcher : Dispatcher) (agenda : Agenda) : Move → Agenda
  | .beginSweep now => agenda ++ (dispatcher.beginSweep now).2.2.map fun key => (now, key)
  | .reenter start _ key => agenda.erase (start, key)
  | _ => agenda

/-- What is on the lists after some moves. -/
def agendaAfterAll (dispatcher : Dispatcher) (agenda : Agenda) : List Move → Agenda
  | [] => agenda
  | move :: moves =>
    (dispatcher.perform move).1.agendaAfterAll (dispatcher.agendaAfter agenda move) moves

/-- Whether sweeps offer nothing again but what they have on their lists. -/
def FollowsAgenda (dispatcher : Dispatcher) (agenda : Agenda) : List Move → Prop
  | [] => True
  | move :: moves =>
    move.IsOn agenda ∧
      (dispatcher.perform move).1.FollowsAgenda (dispatcher.agendaAfter agenda move) moves

instance decidableFollowsAgenda (dispatcher : Dispatcher) (agenda : Agenda) :
    (moves : List Move) → Decidable (dispatcher.FollowsAgenda agenda moves)
  | [] => .isTrue trivial
  | move :: moves =>
    have := (dispatcher.perform move).1.decidableFollowsAgenda
      (dispatcher.agendaAfter agenda move) moves
    inferInstanceAs (Decidable (_ ∧ _))

section Runs

variable {dispatcher : Dispatcher} {agenda : Agenda}

theorem FollowsAgenda.of_append {first rest : List Move}
    (follows : dispatcher.FollowsAgenda agenda (first ++ rest)) :
    (dispatcher.performAll first).1.FollowsAgenda (dispatcher.agendaAfterAll agenda first)
      rest := by
  induction first generalizing dispatcher agenda with
  | nil => exact follows
  | cons move moves ih => exact ih follows.2

/-- What is offered in a run is offered by one of its moves. -/
theorem mem_performAll_iff {moves : List Move} {command : Command} :
    command ∈ (dispatcher.performAll moves).2 ↔
      ∃ earlier move later, moves = earlier ++ move :: later ∧
        command ∈ ((dispatcher.performAll earlier).1.perform move).2 := by
  induction moves generalizing dispatcher with
  | nil => simp [performAll]
  | cons move moves ih =>
      simp only [performAll, List.mem_append, ih]
      constructor
      · rintro (first | ⟨earlier, other, later, rfl, offers⟩)
        · exact ⟨[], move, moves, rfl, first⟩
        · exact ⟨move :: earlier, other, later, rfl, offers⟩
      · rintro ⟨earlier, other, later, parts, offers⟩
        cases earlier with
        | nil =>
            obtain ⟨rfl, rfl⟩ := List.cons.inj parts
            exact Or.inl offers
        | cons head earlier =>
            obtain ⟨rfl, rfl⟩ := List.cons.inj parts
            exact Or.inr ⟨earlier, other, later, rfl, offers⟩

end Runs

/-- Nothing is tracked under a handle but a marked command with a key. -/
def Marked (dispatcher : Dispatcher) (key : IdempotencyKey) (handle : CommandHandle) : Prop :=
  ∀ other entry, dispatcher.entries.find? other = some entry → entry.command.handle = handle →
    other = key ∧ entry.observed = true

/-- Whether a command with a handle waits under a key, and has waited long enough at a moment. -/
def HasDue (dispatcher : Dispatcher) (start : Moment) (key : IdempotencyKey)
    (handle : CommandHandle) : Prop :=
  ∃ entry, dispatcher.entries.find? key = some entry ∧ entry.command.handle = handle ∧
    isDue start.elapsed entry = true

section Marked

variable {dispatcher : Dispatcher} {offered : List Command} {key : IdempotencyKey} {entry : Entry}
  {handle : CommandHandle}

theorem find?_observe_of_concerns (found : dispatcher.entries.find? key = some entry)
    (inFlight : entry.isInFlight = true) {lattice : LatticeId} {component : ComponentId}
    {host : Option HostId} (concerns : entry.concerns lattice component host = true) :
    (dispatcher.observe lattice component host).1.entries.find? key =
      some { entry with observed := true } := by
  have notFinished : ∀ former, dispatcher.entries.find? key = some former →
      former.isInFlight = true := by
    rintro former formerFound
    obtain rfl : former = entry := Option.some.inj (formerFound.symm.trans found)
    exact inFlight
  simp only [observe, find?_retireAll, SortedMap.find?_mapValues, found, Option.map_some,
    markObserved, inFlight, concerns, Bool.and_self, if_true, Option.filter_eq_some_iff,
    decide_eq_true_eq, true_and]
  rw [mem_select_iff]
  rintro ⟨former, formerFound, selected, _⟩
  simp [notFinished former formerFound] at selected

/-- The mark of a command stays for as long as the command is tracked. -/
theorem Tracks.marked (tracks : dispatcher.Tracks offered)
    (found : dispatcher.entries.find? key = some entry) (observed : entry.observed = true)
    (moves : List Move) :
    (dispatcher.performAll moves).1.Marked key entry.command.handle := by
  intro other current currentFound named
  rcases tracks.descends ⟨entry.command, tracks.mem_offered found, rfl⟩ moves other current
    currentFound named with ⟨older, olderFound, olderNamed, keepsMark⟩
  obtain rfl := tracks.eq_of_handle_eq olderFound found olderNamed
  obtain rfl : older = entry := Option.some.inj (olderFound.symm.trans found)
  exact ⟨rfl, keepsMark observed⟩

/-- A marked command is offered by no move but a sweep that comes to it on its list. -/
theorem Marked.offered_perform_iff (marked : dispatcher.Marked key handle)
    (tracks : dispatcher.Tracks offered) (old : ∃ earlier ∈ offered, earlier.handle = handle)
    (move : Move) :
    (∃ command ∈ (dispatcher.perform move).2, command.handle = handle) ↔
      ∃ start now, move = .reenter start now key ∧ dispatcher.HasDue start key handle := by
  have notNew : ∀ now command, dispatcher.Entering now command → command.handle ≠ handle := by
    rcases old with ⟨earlier, member, rfl⟩
    intro now command entering same
    exact tracks.ne_nextHandle earlier member (same.symm.trans entering.handle)
  cases move with
  | dispatch now lattice app action result =>
      simp only [reduceCtorEq, false_and, exists_false, iff_false, perform, dispatch]
      rcases dispatcher.propose_cases now lattice app action with
        ⟨command, entering, proposed⟩ | ⟨other, proposed | proposed⟩
      · simpa [proposed] using notNew now command entering
      · simp [proposed]
      · simp [proposed]
  | acknowledge now ack => simp [perform]
  | sweep now transport =>
      simp only [reduceCtorEq, false_and, exists_false, iff_false, perform]
      rw [← reapSlowly_atOnce]
      rcases reapSlowly_spec tracks.keyed (.atOnce now transport) .byKey with
        ⟨sent, rest, parts, offers, _⟩
      rw [offers]
      rintro ⟨command, member, named⟩
      rcases List.mem_map.mp member with ⟨entry, isSent, rfl⟩
      have isDue := (mem_dueEntries_iff tracks.keyed).mp (parts ▸ List.mem_append_left rest isSent)
      exact Bool.false_ne_true (isDue.2.1.symm.trans (marked _ entry isDue.1 named).2)
  | observe lattice component host => simp [perform]
  | propose now lattice app action =>
      simp only [reduceCtorEq, false_and, exists_false, iff_false, perform]
      rcases dispatcher.propose_cases now lattice app action with
        ⟨command, entering, proposed⟩ | ⟨other, proposed | proposed⟩
      · simpa [proposed] using notNew now command entering
      · simp [proposed]
      · simp [proposed]
  | beginSweep now => simp [perform]
  | reenter start now other =>
      constructor
      · rintro ⟨command, member, named⟩
        simp only [perform] at member
        split at member
        · rename_i next again reentered
          obtain rfl := List.mem_singleton.mp member
          rcases (reenter?_eq_some_iff ..).mp reentered with ⟨entry, found, due, _, rfl⟩
          obtain ⟨rfl, -⟩ := marked other entry found named
          exact ⟨start, now, rfl, entry, found, named, due⟩
        · cases member
      · rintro ⟨_, _, same, entry, found, named, due⟩
        cases same
        simp only [perform, reenter?_of_due found due, List.mem_singleton, exists_eq_left]
        exact named
  | conclude now command result => simp [perform]

/-- In a run, too, it takes a sweep that comes to it. -/
theorem Tracks.offered_performAll_iff (tracks : dispatcher.Tracks offered)
    (found : dispatcher.entries.find? key = some entry) (observed : entry.observed = true)
    (moves : List Move) :
    (∃ command ∈ (dispatcher.performAll moves).2, command.handle = entry.command.handle) ↔
      ∃ earlier start now later, moves = earlier ++ .reenter start now key :: later ∧
        (dispatcher.performAll earlier).1.HasDue start key entry.command.handle := by
  have step : ∀ earlier move,
      (∃ command ∈ ((dispatcher.performAll earlier).1.perform move).2,
        command.handle = entry.command.handle) ↔
      ∃ start now, move = .reenter start now key ∧
        (dispatcher.performAll earlier).1.HasDue start key entry.command.handle := by
    intro earlier move
    exact (tracks.marked found observed earlier).offered_perform_iff (tracks.performAll earlier)
      ⟨entry.command, List.mem_append_left _ (tracks.mem_offered found), rfl⟩ move
  constructor
  · rintro ⟨command, member, named⟩
    rcases mem_performAll_iff.mp member with ⟨earlier, move, later, rfl, offers⟩
    rcases (step earlier move).mp ⟨command, offers, named⟩ with ⟨start, now, rfl, due⟩
    exact ⟨earlier, start, now, later, rfl, due⟩
  · rintro ⟨earlier, start, now, later, rfl, due⟩
    rcases (step earlier _).mpr ⟨start, now, rfl, due⟩ with ⟨command, offers, named⟩
    exact ⟨command, mem_performAll_iff.mpr ⟨earlier, _, later, rfl, offers⟩, named⟩

/-- A sweep that begins does not put a marked command on its list. -/
theorem mem_agenda_of_observed (found : dispatcher.entries.find? key = some entry)
    (observed : entry.observed = true)
    {agenda : Agenda} {move : Move} {start : Moment}
    (listed : (start, key) ∈ dispatcher.agendaAfter agenda move) : (start, key) ∈ agenda := by
  cases move with
  | beginSweep now =>
      rcases List.mem_append.mp listed with before | new
      · exact before
      · rcases List.mem_map.mp new with ⟨other, member, same⟩
        obtain ⟨rfl, rfl⟩ := Prod.mk.inj same
        rcases mem_due_beginSweep_iff.mp member with ⟨other, otherFound, unobserved, _⟩
        obtain rfl : other = entry := Option.some.inj (otherFound.symm.trans found)
        exact absurd observed (Bool.eq_false_iff.mp unobserved)
  | reenter other now otherKey => exact List.mem_of_mem_erase listed
  | _ => exact listed

/-- While a marked command is tracked, its key comes on no list on which it is not already. -/
theorem mem_agenda_of_mem_agendaAfterAll (tracks : dispatcher.Tracks offered)
    (found : dispatcher.entries.find? key = some entry) (observed : entry.observed = true)
    {agenda : Agenda} {moves : List Move} {last : Entry}
    (left : (dispatcher.performAll moves).1.entries.find? key = some last)
    (named : last.command.handle = entry.command.handle) {start : Moment}
    (listed : (start, key) ∈ dispatcher.agendaAfterAll agenda moves) : (start, key) ∈ agenda := by
  induction moves generalizing dispatcher offered entry agenda with
  | nil => exact listed
  | cons move moves ih =>
      let next := (dispatcher.perform move).1
      have nextTracks : next.Tracks _ := tracks.perform move
      have old : ∃ earlier ∈ offered ++ (dispatcher.perform move).2,
          earlier.handle = entry.command.handle :=
        ⟨entry.command, List.mem_append_left _ (tracks.mem_offered found), rfl⟩
      rcases nextTracks.descends old moves key last left named with
        ⟨current, currentFound, currentNamed, _⟩
      have marked := (tracks.marked found observed [move]) key current currentFound currentNamed
      have listedBefore := ih nextTracks currentFound marked.2 left (named.trans currentNamed.symm)
        listed
      exact mem_agenda_of_observed found observed listedBefore

end Marked

/--
However a dispatcher is used, and whatever the transport answers: a command whose effect was
observed while it was under way is offered again exactly if a sweep was under way that had it on its
list already, the sweep comes to it, and it waits to be sent again and had waited long enough when
the sweep began.
-/
theorem offered_when_observed_iff (policy : RetryPolicy) (source : Nat) {before after : List Move}
    {lattice : LatticeId} {component : ComponentId} {host : Option HostId}
    (follows : (new policy source).FollowsAgenda []
      (before ++ .observe lattice component host :: after))
    {key : IdempotencyKey} {entry : Entry}
    (found : ((new policy source).performAll before).1.entries.find? key = some entry)
    (inFlight : entry.isInFlight = true)
    (concerns : entry.concerns lattice component host = true) :
    let observed := (((new policy source).performAll before).1.observe lattice component host).1
    (∃ command ∈ (observed.performAll after).2, command.handle = entry.command.handle) ↔
      ∃ earlier start now later, after = earlier ++ .reenter start now key :: later ∧
        (start, key) ∈ (new policy source).agendaAfterAll [] before ∧
        (observed.performAll earlier).1.HasDue start key entry.command.handle := by
  intro observed
  let dispatcher := ((new policy source).performAll before).1
  have tracks : observed.Tracks _ :=
    (tracks_performAll policy source before).perform (.observe lattice component host)
  have marked : observed.entries.find? key = some { entry with observed := true } :=
    find?_observe_of_concerns found inFlight concerns
  have followsAfter := follows.of_append.2
  refine (tracks.offered_performAll_iff marked rfl after).trans ?_
  refine exists_congr fun earlier => exists_congr fun start => exists_congr fun now =>
    exists_congr fun later => and_congr_right fun parts => (and_iff_right_of_imp ?_).symm
  rintro ⟨last, left, named, _⟩
  subst parts
  exact mem_agenda_of_mem_agendaAfterAll tracks marked rfl left named followsAfter.of_append.1

/-- A stop that has timed out is observed before the sweep begins that would have sent it again. -/
theorem offered_when_observed_iff_of_timeout :
    let stop : RequiredAction := .stopInstances ⟨"shop-api"⟩ ⟨"host-a"⟩ [⟨"i-1"⟩]
    let sweep (elapsed : Nat) : Move := .sweep ⟨elapsed, ⟨0, 0⟩⟩ fun _ => none
    let before : List Move := [.dispatch ⟨0, ⟨0, 0⟩⟩ ⟨"prod"⟩ ⟨"shop"⟩ stop none, sweep 10000]
    let dispatcher := ((new .standard 0).performAll before).1
    let observed := (dispatcher.observe ⟨"prod"⟩ ⟨"shop-api"⟩ none).1
    ∃ entry, dispatcher.entries.find? (stop.idempotencyKey ⟨"prod"⟩) = some entry ∧
      (new .standard 0).FollowsAgenda []
        (before ++ .observe ⟨"prod"⟩ ⟨"shop-api"⟩ none :: [sweep 10500]) ∧
      entry.isInFlight = true ∧ entry.concerns ⟨"prod"⟩ ⟨"shop-api"⟩ none = true ∧
      ¬∃ command ∈ (observed.performAll [sweep 10500]).2,
        command.handle = entry.command.handle := by
  intro stop sweep before dispatcher observed
  have tracked : (dispatcher.entries.find? (stop.idempotencyKey ⟨"prod"⟩)).any (fun entry =>
      entry.isInFlight && entry.concerns ⟨"prod"⟩ ⟨"shop-api"⟩ none) = true := by decide +kernel
  rcases (Option.any_eq_true _ _).mp tracked with ⟨entry, found, known⟩
  rcases Bool.and_eq_true_iff.mp known with ⟨inFlight, concerns⟩
  have follows : (new .standard 0).FollowsAgenda []
      (before ++ .observe ⟨"prod"⟩ ⟨"shop-api"⟩ none :: [sweep 10500]) := by decide +kernel
  refine ⟨entry, found, follows, inFlight, concerns, fun offered => ?_⟩
  rcases (offered_when_observed_iff .standard 0 follows found inFlight concerns).mp offered with
    ⟨_, start, _, _, _, listed, _⟩
  -- No sweep was under way when the stop was observed.
  exact List.not_mem_nil listed

/--
Two stops wait to be sent again. While a sweep waits for the transport with the first one, the
second one is observed, and then sent for the second time.
-/
theorem resends_though_observed :
    let stop (component : String) : RequiredAction :=
      .stopInstances ⟨component⟩ ⟨"host-a"⟩ [⟨"i-1"⟩]
    let dispatch (component : String) : Move :=
      .dispatch ⟨0, ⟨0, 0⟩⟩ ⟨"prod"⟩ ⟨"shop"⟩ (stop component) none
    let key (component : String) := (stop component).idempotencyKey ⟨"prod"⟩
    let start : Moment := ⟨10500, ⟨0, 0⟩⟩
    let before : List Move :=
      [dispatch "shop-api", dispatch "shop-web", .sweep ⟨10000, ⟨0, 0⟩⟩ fun _ => none,
        .beginSweep start, .reenter start start (key "shop-api")]
    let observe : Move := .observe ⟨"prod"⟩ ⟨"shop-web"⟩ (some ⟨"host-a"⟩)
    let after : List Move := [.reenter start ⟨10540, ⟨0, 0⟩⟩ (key "shop-web")]
    let observed := ((new .standard 0).performAll (before ++ [observe])).1
    (new .standard 0).FollowsAgenda [] (before ++ observe :: after) ∧
      (observed.entries.find? (key "shop-web")).any (fun entry => entry.isInFlight &&
        entry.observed && entry.command.handle == .ofNumbers 0 1) = true ∧
      ((observed.performAll after).2.map fun command => (command.handle, command.attempt)) =
        [(.ofNumbers 0 1, 2)] := by
  decide +kernel

end Dispatcher

end Reconciler
