import Reconciler.Proofs.Observed.Forgetting

/-!
# The life of a host

The shortest life that leaves a tombstone: a host starts and stops. What happens at the ends of the
range of times is shown on such lives.
-/

namespace Reconciler

namespace LatticeEvent

/-- A host starts, with its first event. -/
def birth (lattice : LatticeId) (host : HostId) (time : Timestamp) : LatticeEvent :=
  ⟨lattice, host, 1, time, .hostStarted ∅ none⟩

/-- A host stops, with its second event. -/
def death (lattice : LatticeId) (host : HostId) (time : Timestamp) : LatticeEvent :=
  ⟨lattice, host, 2, time, .hostStopped⟩

section

variable (lattice : LatticeId) (host : HostId) (time : Timestamp)

@[simp]
theorem birth_lattice : (birth lattice host time).lattice = lattice :=
  rfl

@[simp]
theorem birth_host : (birth lattice host time).host = host :=
  rfl

@[simp]
theorem birth_occurredAt : (birth lattice host time).occurredAt = time :=
  rfl

@[simp]
theorem death_lattice : (death lattice host time).lattice = lattice :=
  rfl

@[simp]
theorem death_host : (death lattice host time).host = host :=
  rfl

@[simp]
theorem death_occurredAt : (death lattice host time).occurredAt = time :=
  rfl

/-- The birth of a host, delivered many times. -/
def births (count : Nat) : List LatticeEvent :=
  List.replicate count (birth lattice host time)

@[simp]
theorem length_births (count : Nat) : (births lattice host time count).length = count :=
  List.length_replicate

theorem births_append_births (first second : Nat) :
    births lattice host time first ++ births lattice host time second =
      births lattice host time (first + second) :=
  List.replicate_append_replicate

end

end LatticeEvent

namespace Standing

/-- A host of which nothing is known. -/
def unknown : Standing :=
  ⟨none, none⟩

/-- A host that has started with its first event. -/
def alive (time : Timestamp) : Standing :=
  ⟨some ⟨∅, none, ∅, 1, time⟩, none⟩

/-- A host that has stopped with its second event. -/
def dead (time : Timestamp) : Standing :=
  ⟨none, some ⟨2, none, time⟩⟩

theorem unknown_ne_dead (time : Timestamp) : unknown ≠ dead time := by
  simp [unknown, dead]

theorem unknown_after_birth (lattice : LatticeId) (host : HostId) (time : Timestamp) :
    unknown.after (.birth lattice host time) = alive time := by
  have first : max 0 1 = (1 : UInt64) := by decide
  simp [after, isStale, isRestart, unknown, LatticeEvent.birth, LatticeEvent.liveAfter,
    LatticeEvent.tombstoneAfter, LatticeEvent.boot, HostState.appearing, HostState.advance,
    Timestamp.later, first, alive]

/-- A birth that a living host has seen is nothing new. -/
theorem alive_isStale_birth (lattice : LatticeId) (host : HostId) (started time : Timestamp) :
    (alive started).isStale (.birth lattice host time) = true := by
  simp [isStale, isRestart, alive, LatticeEvent.birth, LatticeEvent.isLaterBoot,
    LatticeEvent.bootEpoch]

theorem alive_after_death (lattice : LatticeId) (host : HostId) (started stopped : Timestamp) :
    (alive started).after (.death lattice host stopped) = dead stopped := by
  have second : max 1 2 = (2 : UInt64) := by decide
  simp [after, isStale, isRestart, LatticeEvent.death, LatticeEvent.isLaterBoot,
    LatticeEvent.bootEpoch, LatticeEvent.liveAfter, LatticeEvent.tombstoneAfter, second, alive,
    dead]

/-- A host that died past all expiries is forgotten at the time of its death. -/
theorem prune_dead {time : Timestamp} (past : ¬time ≤ .latest) :
    (dead time).prune time = unknown := by
  have expired : ¬time ≤ time.addSeconds Tombstone.retentionSeconds :=
    mt (Timestamp.le_addSeconds_iff (by decide)).mp past
  simp [prune, dead, unknown, Tombstone.expiresAt, expired]

/-- A birth finds a dead host again if the tombstone has expired. -/
theorem dead_after_birth (lattice : LatticeId) (host : HostId) {stopped time : Timestamp}
    (expired : ¬time ≤ stopped.addSeconds Tombstone.retentionSeconds) :
    (dead stopped).isStale (.birth lattice host time) = false := by
  simp [isStale, isRestart, LatticeEvent.birth, LatticeEvent.isLaterBoot, LatticeEvent.bootEpoch,
    Tombstone.blocks, Tombstone.expiresAt, expired, dead]

end Standing

namespace ObservedState

theorem standing_empty (lattice : LatticeId) (id : HostId) :
    (empty lattice).standing id = .unknown :=
  rfl

/-- A host that has died is known as dead. -/
theorem standing_replay_death (lattice : LatticeId) (host : HostId) (started stopped : Timestamp) :
    (replay lattice [.birth lattice host started, .death lattice host stopped]).standing host =
      .dead stopped := by
  have born : ((empty lattice).after (.birth lattice host started)).standing host =
      .alive started := by
    rw [standing_after, standing_empty, Standing.unknown_after_birth]
    exact if_pos ⟨rfl, rfl⟩
  refine (standing_after _ _ host).trans ?_
  rw [born, Standing.alive_after_death, lattice_after]
  exact if_pos ⟨rfl, rfl⟩

/-- A birth that is taken changes the lattice if the host is not live. -/
theorem apply_birth_snd {state : ObservedState} {lattice : LatticeId} {host : HostId}
    {time : Timestamp} (taken : state.takes (.birth lattice host time))
    (notLive : state.host? host = none) :
    (state.apply (.birth lattice host time)).2 = .changed .lattice := by
  rw [apply_snd, if_pos taken, LatticeEvent.birth_host, notLive]
  rfl

theorem apply_first_birth_snd (lattice : LatticeId) (host : HostId) (time : Timestamp) :
    ((replay lattice []).apply (.birth lattice host time)).2 = .changed .lattice :=
  apply_birth_snd ⟨rfl, rfl⟩ rfl

/-- The birth of a living host is skipped as often as it comes. -/
theorem afterAll_births_of_alive {state : ObservedState} {lattice : LatticeId} {host : HostId}
    {started time : Timestamp} (lives : state.standing host = .alive started) (count : Nat) :
    state.afterAll (LatticeEvent.births lattice host time count) = state := by
  have skipped : ¬state.takes (.birth lattice host time) := by
    rintro ⟨_, fresh⟩
    have stale := Standing.alive_isStale_birth lattice host started time
    rw [← lives] at stale
    exact Bool.false_ne_true (fresh.symm.trans stale)
  induction count with
  | zero => rfl
  | succ count ih =>
      rw [LatticeEvent.births, List.replicate_succ, afterAll_cons, after,
        apply_of_not_takes skipped]
      exact ih

end ObservedState

end Reconciler
