import Reconciler.Proofs.Observed.Forgetting
import Reconciler.Proofs.Observed.Lifetime
import Reconciler.Proofs.Projection.Logs

/-!
# Projection as a refinement of replay

A projector that compacts its logs does, event by event, what a plain replay of the whole history
does, as long as time does not go backwards in a lattice. The states of the two are related by
forgetting: whatever compaction has pruned expired before the latest event of the lattice, so that
it expired before every event still to come.
-/

namespace Reconciler

namespace LatticeLog

/-- Compaction leaves the state alone, or prunes it before the time of an event of the log. -/
theorem current_compact (log : LatticeLog) (limit : Nat) :
    (log.compact limit).current = log.current ∨
      ∃ event ∈ log.tail, ∃ time ≤ event.occurredAt,
        (log.compact limit).current = log.current.pruneRetired time := by
  simp only [compact]
  split
  · exact Or.inl rfl
  · split
    · exact Or.inl rfl
    · rename_i time earliest
      simp only
      split
      · exact Or.inl rfl
      · right
        rcases List.exists_mem_of_ne_nil _ (ne_nil_of_earliest? earliest) with ⟨event, inTail⟩
        exact ⟨event, List.mem_of_mem_drop inTail, time, earliest?_le earliest inTail, rfl⟩

/--
A log whose events belong to a history, and whose state may have forgotten from the replay of the
history what expired before all times not earlier than it.
-/
structure Refines (log : LatticeLog) (lattice : LatticeId) (past : List LatticeEvent) : Prop where
  tail : log.tail ⊆ past
  current : ∀ time, (∀ event ∈ past, event.occurredAt ≤ time) →
    log.current.Forgets (.replay lattice past) time

namespace Refines

variable {log : LatticeLog} {lattice : LatticeId} {past : List LatticeEvent} {limit : Nat}

theorem compact (refines : log.Refines lattice past) (limit : Nat) :
    (log.compact limit).Refines lattice past := by
  refine ⟨fun event member => refines.tail (tail_compact_subset log limit member),
    fun time bound => ?_⟩
  rcases log.current_compact limit with same | ⟨event, inTail, pruned, notLater, same⟩
  · rw [same]
    exact refines.current time bound
  · rw [same]
    exact (refines.current time bound).pruneRetired
      (le_trans notLater (bound event (refines.tail inTail)))

/-- Appending an event that does not go back in time keeps the log a refinement of the history. -/
theorem append (refines : log.Refines lattice past) {event : LatticeEvent}
    (notEarlier : ∀ earlier ∈ past, earlier.occurredAt ≤ event.occurredAt) (limit : Nat) :
    (log.append event limit).1.Refines lattice (past ++ [event]) := by
  rw [append_fst]
  apply compact
  refine ⟨?_, fun time bound => ?_⟩
  · exact List.append_subset.mpr ⟨List.subset_append_of_subset_left _ refines.tail,
      List.subset_append_right _ _⟩
  · -- The event is the latest, so that the step is taken at its time and any bound lies later.
    rcases List.forall_mem_append.mp bound with ⟨_, eventBound⟩
    have stepped := (refines.current event.occurredAt notEarlier).after (le_refl event.occurredAt)
    rw [ObservedState.replay, ObservedState.afterAll_append]
    exact stepped.mono (eventBound event (List.mem_singleton_self event))

/-- The log answers an event that does not go back in time as the replay of the history does. -/
theorem append_snd_eq (refines : log.Refines lattice past) {event : LatticeEvent}
    (notEarlier : ∀ earlier ∈ past, earlier.occurredAt ≤ event.occurredAt) (limit : Nat) :
    (log.append event limit).2 = ((ObservedState.replay lattice past).apply event).2 :=
  (refines.current event.occurredAt notEarlier).apply_snd_eq (le_refl event.occurredAt)

theorem appendAll {events : List LatticeEvent} (refines : log.Refines lattice past)
    (ordered : (past ++ events).Pairwise fun earlier later =>
      earlier.occurredAt ≤ later.occurredAt) :
    (log.appendAll events limit).Refines lattice (past ++ events) := by
  induction events generalizing log past with
  | nil => simpa [LatticeLog.appendAll] using refines
  | cons event rest ih =>
      have notEarlier : ∀ earlier ∈ past, earlier.occurredAt ≤ event.occurredAt :=
        fun earlier member =>
          (List.pairwise_append.mp ordered).2.2 earlier member event List.mem_cons_self
      have regrouped : past ++ event :: rest = past ++ [event] ++ rest := by simp
      rw [regrouped] at ordered ⊢
      exact ih (refines.append notEarlier limit) ordered

end Refines

theorem refines_empty (lattice : LatticeId) : (empty lattice).Refines lattice [] :=
  ⟨List.Subset.refl _, fun time _ => .refl _ time⟩

end LatticeLog

namespace Projector

theorem exists_latest (events : List LatticeEvent) :
    ∃ latest, ∀ event ∈ events, event.occurredAt ≤ latest := by
  induction events with
  | nil => exact ⟨default, by simp⟩
  | cons event rest ih =>
      rcases ih with ⟨latest, bound⟩
      refine ⟨max event.occurredAt latest, List.forall_mem_cons.mpr ⟨le_max_left _ _, ?_⟩⟩
      exact fun other member => le_trans (bound other member) (le_max_right _ _)

/-- The log of a lattice whose events do not go back in time refines the history of the lattice. -/
theorem refines_history {lattice : LatticeId} {events : List LatticeEvent}
    (ordered : (history lattice events).Pairwise fun earlier later =>
      earlier.occurredAt ≤ later.occurredAt) (limit : Nat) :
    (((withLimit limit).afterAll events).log lattice).Refines lattice (history lattice events) := by
  rw [log_afterAll]
  exact (LatticeLog.refines_empty lattice).appendAll ordered

/--
A projector refines the plain fold of all events, if time does not go back in any lattice: it
answers every event as the replay of the history before it does, and its states have the hosts and
the links of the replays, and of their tombstones some.
-/
theorem afterAll_refines_replay (limit : Nat) {events : List LatticeEvent}
    (ordered : ∀ lattice, (history lattice events).Pairwise fun earlier later =>
      earlier.occurredAt ≤ later.occurredAt) :
    (∀ before event rest, events = before ++ event :: rest →
      (((withLimit limit).afterAll before).apply event).2 =
        ((ObservedState.replay event.lattice (history event.lattice before)).apply event).2) ∧
    ∀ lattice,
      let kept := ((withLimit limit).afterAll events).snapshot lattice
      let full := ObservedState.replay lattice (history lattice events)
      kept.hosts = full.hosts ∧ kept.links = full.links ∧
        ∀ host tombstone, kept.retired.find? host = some tombstone →
          full.retired.find? host = some tombstone := by
  constructor
  · rintro before event rest rfl
    have historySplit : history event.lattice (before ++ event :: rest) =
        history event.lattice before ++ event :: history event.lattice rest := by
      simp [history]
    have inOrder := ordered event.lattice
    rw [historySplit, List.pairwise_append] at inOrder
    rcases inOrder with ⟨beforeInOrder, _, across⟩
    refine (refines_history beforeInOrder limit).append_snd_eq ?_ (max limit 2)
    exact fun earlier member => across earlier member event List.mem_cons_self
  · intro lattice kept full
    rcases exists_latest (history lattice events) with ⟨latest, bound⟩
    have forgets : kept.Forgets full latest :=
      (refines_history (ordered lattice) limit).current latest bound
    refine ⟨?_, SortedMap.ext_find? forgets.links, ?_⟩
    · exact SortedMap.ext_find? fun host => (forgets.standing host).live
    · intro host tombstone found
      rcases (forgets.standing host).tombstone with same | ⟨forgotten, _⟩
      · exact same.symm.trans found
      · exact absurd (forgotten.symm.trans found) (by simp)

/-- A host stops and is forgotten as another appears, an hour later. -/
theorem afterAll_refines_replay_of_forgotten :
    let events : List LatticeEvent := [.birth ⟨"prod"⟩ ⟨"host-a"⟩ ⟨0, 0⟩,
      .death ⟨"prod"⟩ ⟨"host-a"⟩ ⟨1, 0⟩, .birth ⟨"prod"⟩ ⟨"host-b"⟩ ⟨3602, 0⟩]
    let kept := ((withLimit 2).afterAll events).snapshot ⟨"prod"⟩
    let full := ObservedState.replay ⟨"prod"⟩ (history ⟨"prod"⟩ events)
    (∀ lattice, (history lattice events).Pairwise fun earlier later =>
      earlier.occurredAt ≤ later.occurredAt) ∧
    kept.retired ≠ full.retired ∧ kept.hosts = full.hosts ∧ kept.links = full.links := by
  intro events kept full
  have ordered : ∀ lattice, (history lattice events).Pairwise fun earlier later =>
      earlier.occurredAt ≤ later.occurredAt := by
    intro lattice
    apply List.Pairwise.filter
    decide
  rcases afterAll_refines_replay 2 ordered with ⟨_, states⟩
  rcases states ⟨"prod"⟩ with ⟨hosts, links, _⟩
  have forgotten : kept.retired ≠ full.retired := by decide +kernel
  exact ⟨ordered, forgotten, hosts, links⟩

end Projector

end Reconciler
