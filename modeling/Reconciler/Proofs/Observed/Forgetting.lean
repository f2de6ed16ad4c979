import Reconciler.Proofs.Observed.Standing
import Reconciler.Proofs.Timestamp

/-!
# Forgetting expired tombstones

A tombstone that expired before an event neither holds the event back nor changes what the event
does. A state may therefore forget it as soon as all further events come later: the two states go
on alike, and forgetting before the further events or after them comes to the same.
-/

namespace Reconciler

namespace Standing

/-- The standing without a tombstone that expired before a time. -/
def prune (standing : Standing) (before : Timestamp) : Standing :=
  { standing with
    tombstone := standing.tombstone.filter fun tombstone => before ≤ tombstone.expiresAt }

/--
A standing that may have forgotten what another remembers of a stopped host, if that expired before
a time.
-/
structure Forgets (kept full : Standing) (before : Timestamp) : Prop where
  live : kept.live = full.live
  tombstone : kept.tombstone = full.tombstone ∨
    kept.tombstone = none ∧ ∀ tombstone ∈ full.tombstone, tombstone.expiresAt < before

namespace Forgets

variable {kept full : Standing} {before : Timestamp} {event : LatticeEvent}

theorem refl (standing : Standing) (before : Timestamp) : standing.Forgets standing before :=
  ⟨rfl, Or.inl rfl⟩

/-- What was forgotten before a time was forgotten before any later time. -/
theorem mono (forgets : kept.Forgets full before) {later : Timestamp} (notLater : before ≤ later) :
    kept.Forgets full later := by
  refine ⟨forgets.live, forgets.tombstone.imp_right ?_⟩
  rintro ⟨forgotten, expired⟩
  exact ⟨forgotten, fun tombstone found => lt_of_lt_of_le (expired tombstone found) notLater⟩

/-- One may forget more of what another has kept. -/
theorem trans {less : Standing} (forgetsMore : less.Forgets kept before)
    (forgets : kept.Forgets full before) : less.Forgets full before := by
  refine ⟨forgetsMore.live.trans forgets.live, ?_⟩
  rcases forgetsMore.tombstone with same | ⟨forgotten, expired⟩
  · rw [same]
    exact forgets.tombstone
  · rcases forgets.tombstone with same | ⟨_, expiredEarlier⟩
    · exact Or.inr ⟨forgotten, same ▸ expired⟩
    · exact Or.inr ⟨forgotten, expiredEarlier⟩

/-- Pruning forgets what it drops. -/
theorem prune_self (standing : Standing) (before : Timestamp) :
    (standing.prune before).Forgets standing before := by
  refine ⟨rfl, ?_⟩
  rcases standing with ⟨live, _ | tombstone⟩
  · exact Or.inl rfl
  · by_cases expired : before ≤ tombstone.expiresAt
    · exact Or.inl (by simp [Standing.prune, expired])
    · exact Or.inr (by simpa [Standing.prune] using expired)

/-- A forgotten tombstone holds back no event that comes after it has expired. -/
theorem isStale_eq (forgets : kept.Forgets full before) (current : before ≤ event.occurredAt) :
    kept.isStale event = full.isStale event := by
  rcases kept with ⟨live, keptTombstone⟩
  rcases full with ⟨fullLive, fullTombstone⟩
  obtain rfl : live = fullLive := forgets.live
  rcases forgets.tombstone with same | ⟨forgotten, expired⟩
  · obtain rfl : keptTombstone = fullTombstone := same
    rfl
  · obtain rfl : keptTombstone = none := forgotten
    rcases live with _ | host
    · rcases fullTombstone with _ | tombstone
      · rfl
      · have notBlocking : tombstone.blocks event = false := by
          have : ¬event.occurredAt ≤ tombstone.expiresAt :=
            not_le_of_gt (lt_of_lt_of_le (expired tombstone rfl) current)
          simpa [Tombstone.blocks] using this
        simp [Standing.isStale, notBlocking]
    · rfl

/-- Two standings of which one has forgotten go on alike. -/
theorem after (forgets : kept.Forgets full before) (current : before ≤ event.occurredAt) :
    (kept.after event).Forgets (full.after event) before := by
  rw [Standing.after, Standing.after, forgets.isStale_eq current]
  split
  · exact forgets
  · refine ⟨by rw [forgets.live], ?_⟩
    simp only [LatticeEvent.tombstoneAfter, forgets.live]
    cases event.kind with
    | hostStopped =>
        cases full.live with
        | some host => exact Or.inl rfl
        | none => exact forgets.tombstone
    | instanceStopped component instanceId => exact forgets.tombstone
    | _ => exact Or.inl rfl

end Forgets

/--
Forgetting before an event or after it comes to the same, unless the event leaves a tombstone that
has already expired.
-/
theorem after_prune (standing : Standing) {before : Timestamp} {event : LatticeEvent}
    (current : before ≤ event.occurredAt) (reachable : event.occurredAt ≤ .latest) :
    (standing.prune before).after event = (standing.after event).prune before := by
  have fresh : before ≤ event.occurredAt.addSeconds Tombstone.retentionSeconds :=
    le_trans current ((Timestamp.le_addSeconds_iff (by decide)).mpr reachable)
  rw [after, after, (Forgets.prune_self standing before).isStale_eq current]
  split
  · rfl
  · simp only [prune, LatticeEvent.tombstoneAfter]
    cases event.kind with
    | hostStopped =>
        cases standing.live with
        | some host =>
            simp only [Option.filter_some]
            rw [if_pos]
            exact decide_eq_true fresh
        | none => rfl
    | _ => rfl

end Standing

namespace ObservedState

theorem standing_pruneRetired (state : ObservedState) (before : Timestamp) (id : HostId) :
    (state.pruneRetired before).standing id = (state.standing id).prune before := by
  simp [standing, pruneRetired, Standing.prune, host?]

/-- Pruning drops nothing exactly if it changes nothing. -/
theorem prunedCount_eq_zero_iff {state : ObservedState} {before : Timestamp} :
    state.prunedCount before = 0 ↔ state.pruneRetired before = state := by
  constructor
  · intro nothing
    have unchanged :
        (state.retired.filter fun _ tombstone => before ≤ tombstone.expiresAt) = state.retired := by
      have noFewer : state.retired.size ≤ (state.pruneRetired before).retired.size :=
        Nat.le_of_sub_eq_zero nothing
      apply SortedMap.ext
      exact List.filter_sublist.eq_of_length_le noFewer
    rw [pruneRetired, unchanged]
  · intro unchanged
    rw [prunedCount, unchanged, Nat.sub_self]

/-- Forgetting before an event or after it comes to the same. -/
theorem after_pruneRetired (state : ObservedState) {before : Timestamp} {event : LatticeEvent}
    (current : before ≤ event.occurredAt) (reachable : event.occurredAt ≤ .latest) :
    (state.pruneRetired before).after event = (state.after event).pruneRetired before := by
  have sameTaken : (state.pruneRetired before).takes event ↔ state.takes event := by
    rw [takes, takes, standing_pruneRetired,
      (Standing.Forgets.prune_self _ before).isStale_eq current]
    rfl
  apply ext_standing
  · simp [pruneRetired]
  · intro id
    rw [standing_pruneRetired, standing_after, standing_after, standing_pruneRetired,
      Standing.after_prune _ current reachable]
    exact (apply_ite (Standing.prune · before) _ _ _).symm
  · intro key
    have pruned : ((state.after event).pruneRetired before).link? key =
        (state.after event).link? key := rfl
    have kept : (state.pruneRetired before).link? key = state.link? key := rfl
    rw [pruned, link?_after, link?_after]
    simp only [sameTaken, kept]

/-- Forgetting before some events or after them comes to the same. -/
theorem afterAll_pruneRetired (state : ObservedState) {before : Timestamp}
    {events : List LatticeEvent}
    (times : ∀ event ∈ events, before ≤ event.occurredAt ∧ event.occurredAt ≤ .latest) :
    (state.pruneRetired before).afterAll events = (state.afterAll events).pruneRetired before := by
  induction events generalizing state with
  | nil => rfl
  | cons event rest ih =>
      rcases List.forall_mem_cons.mp times with ⟨⟨current, reachable⟩, restTimes⟩
      rw [afterAll_cons, after_pruneRetired state current reachable]
      exact ih (state.after event) restTimes

/--
A state that may have forgotten some of the tombstones of another, if they expired before a time,
and agrees with it on everything else.
-/
structure Forgets (kept full : ObservedState) (before : Timestamp) : Prop where
  lattice : kept.lattice = full.lattice
  standing : ∀ id, (kept.standing id).Forgets (full.standing id) before
  links : ∀ key, kept.link? key = full.link? key

namespace Forgets

variable {kept full : ObservedState} {before : Timestamp} {event : LatticeEvent}

theorem refl (state : ObservedState) (before : Timestamp) : state.Forgets state before :=
  ⟨rfl, fun _ => .refl _ before, fun _ => rfl⟩

theorem mono (forgets : kept.Forgets full before) {later : Timestamp} (notLater : before ≤ later) :
    kept.Forgets full later :=
  ⟨forgets.lattice, fun id => (forgets.standing id).mono notLater, forgets.links⟩

theorem takes_iff (forgets : kept.Forgets full before) (current : before ≤ event.occurredAt) :
    kept.takes event ↔ full.takes event := by
  rw [takes, takes, forgets.lattice, (forgets.standing event.host).isStale_eq current]

/-- A state that has forgotten answers an event as the other state does. -/
theorem apply_snd_eq (forgets : kept.Forgets full before) (current : before ≤ event.occurredAt) :
    (kept.apply event).2 = (full.apply event).2 := by
  have live : kept.host? event.host = full.host? event.host := (forgets.standing event.host).live
  simp only [apply_snd, forgets.takes_iff current, live, forgets.links]

/-- A state that has forgotten goes on as the other state does. -/
theorem after (forgets : kept.Forgets full before) (current : before ≤ event.occurredAt) :
    (kept.after event).Forgets (full.after event) before := by
  refine ⟨by simp [forgets.lattice], fun id => ?_, fun key => ?_⟩
  · rw [standing_after, standing_after, forgets.lattice]
    split
    · exact (forgets.standing id).after current
    · exact forgets.standing id
  · simp only [link?_after, forgets.takes_iff current, forgets.links]

/-- A state may forget more of what has expired. -/
theorem pruneRetired (forgets : kept.Forgets full before) {time : Timestamp}
    (notLater : time ≤ before) : (kept.pruneRetired time).Forgets full before := by
  refine ⟨forgets.lattice, fun id => ?_, forgets.links⟩
  rw [standing_pruneRetired]
  exact ((Standing.Forgets.prune_self _ time).mono notLater).trans (forgets.standing id)

end Forgets

end ObservedState

end Reconciler
