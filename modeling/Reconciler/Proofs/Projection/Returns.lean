import Reconciler.Proofs.Projection.Reaping

/-!
# The return of reaped hosts

The stop by which the reaper removes a host takes the number next after those of the host. A start
that the host itself gives that number is therefore no later than what is remembered of the host: it
is skipped for as long as the tombstone lasts, unless it announces a later boot. All starts with a
higher number bring the host back.
-/

namespace Reconciler

namespace Standing

/-- A stopped host lives after a start exactly if the start is not held back. -/
theorem isSome_live_after_start_iff {standing : Standing} {start : LatticeEvent} {labels : Labels}
    {epoch : Option UInt64} (stopped : standing.live = none)
    (kind : start.kind = .hostStarted labels epoch) :
    (standing.after start).live.isSome = true ↔ standing.isStale start = false := by
  rw [after]
  cases standing.isStale start with
  | false => simp [LatticeEvent.liveAfter, kind]
  | true => simp [stopped]

/-- The starts that find a stopped host again, which may have been forgotten. -/
theorem Forgets.isStale_start_eq_false_iff {kept : Standing} {tombstone : Tombstone}
    {before : Timestamp} (forgets : kept.Forgets (.retired tombstone) before)
    {start : LatticeEvent} (started : start.isHostStarted = true) :
    kept.isStale start = false ↔
      tombstone.highWater < start.sequence ∨ start.isLaterBoot tombstone.bootEpoch = true ∨
        tombstone.expiresAt < start.occurredAt ∨ kept.tombstone = none := by
  rcases kept with ⟨live, remembered⟩
  obtain rfl : live = none := forgets.live
  rcases forgets.tombstone with same | ⟨forgotten, _⟩
  · obtain rfl : remembered = some tombstone := same
    have stale := isStale_retired tombstone start
    rw [retired, Tombstone.yieldsTo, Tombstone.blocks, started, Bool.true_and] at stale
    rw [stale]
    simp only [Bool.and_eq_false_iff, Bool.not_eq_false', Bool.or_eq_true, decide_eq_false_iff_not,
      decide_eq_true_iff, not_le, reduceCtorEq, or_false]
    tauto
  · obtain rfl : remembered = none := forgotten
    simp [isStale, isRestart]

end Standing

namespace HostReaper

open Projector

variable {limit : Nat} {projector : Projector} {lattice : LatticeId} {id : HostId}

/--
A host that reaping has removed comes back by a start exactly if the number of the start is beyond
that of the stop, which is next after the mark of the host, or the start announces a later boot, or
it comes after the tombstone of the host has expired, or that tombstone has been forgotten.
Otherwise the start is skipped. What has come from other hosts since makes no difference, but that
the tombstone may be forgotten when it has expired.
-/
theorem returns_after_reap_iff {now : Timestamp} {reaper : HostReaper} {host : HostState}
    {others : List LatticeEvent} {start : LatticeEvent} {labels : Labels} {epoch : Option UInt64}
    (reachable : Reachable limit (fun _ => True) projector)
    (lives : (projector.snapshot lattice).host? id = some host)
    (removed : ((reaper.reap now projector).1.snapshot lattice).host? id = none)
    (apart : ∀ event ∈ others, event.lattice = lattice → event.host ≠ id)
    (addressed : start.lattice = lattice) (own : start.host = id)
    (kind : start.kind = .hostStarted labels epoch) :
    let later := (reaper.reap now projector).1.afterAll others
    let returns := host.highWater + 1 < start.sequence ∨
      start.isLaterBoot host.bootEpoch = true ∨
      now.addSeconds Tombstone.retentionSeconds < start.occurredAt ∨
      (later.snapshot lattice).retired.find? id = none
    ((later.apply start).2 ≠ .skipped ↔ returns) ∧
      ((((later.apply start).1.snapshot lattice).host? id).isSome = true ↔ returns) ∧
      ((later.snapshot lattice).retired.find? id = none → ∃ time,
        now.addSeconds Tombstone.retentionSeconds < time ∧
        (time = now ∨ ∃ event ∈ others, event.lattice = lattice ∧ event.occurredAt = time)) := by
  subst addressed own
  intro later returns
  have nextReachable := reachable.reap reaper now trivial
  have laterReachable : Reachable limit (fun _ => True) later :=
    nextReachable.afterAll fun _ _ => trivial
  rcases forgets_afterAll_of_apart nextReachable.two_le_limit apart
    (forgets_of_removed trivial reachable lives removed) with ⟨time, isTime, forgets⟩
  have started : start.isHostStarted = true := by rw [LatticeEvent.isHostStarted, kind]
  have fresh : ((later.snapshot start.lattice).standing start.host).isStale start = false ↔
      returns :=
    forgets.isStale_start_eq_false_iff started
  have inLattice := laterReachable.lattice_snapshot start.lattice
  refine ⟨(apply_snd_ne_skipped_iff inLattice).trans fresh, ?_, fun forgotten => ⟨time, ?_, isTime⟩⟩
  · rw [host?_apply laterReachable.two_le_limit inLattice,
      Standing.isSome_live_after_start_iff forgets.live kind, fresh]
  · rcases forgets.tombstone with same | ⟨_, expired⟩
    · cases forgotten.symm.trans same
    · exact expired _ rfl

/-- Two events after its first one, a host that has been reaped starts again. -/
theorem returns_after_reap_of_later_start :
    let event (sequence : UInt64) (second : Int) : LatticeEvent :=
      ⟨⟨"prod"⟩, ⟨"host-a"⟩, sequence, ⟨second, 0⟩, .hostStarted ∅ none⟩
    let reaped := ((HostReaper.new 30000000000 2).reap ⟨61, 0⟩ (Projector.new.apply (event 1 0)).1)
    reaped.2 = some [(⟨"prod"⟩, ⟨"host-a"⟩)] ∧ (reaped.1.apply (event 3 62)).2 ≠ .skipped ∧
      (((reaped.1.apply (event 3 62)).1.snapshot ⟨"prod"⟩).host? ⟨"host-a"⟩).isSome = true := by
  intro event reaped
  have answered : reaped.2 = some [(⟨"prod"⟩, ⟨"host-a"⟩)] := by decide +kernel
  have removed : (reaped.1.snapshot ⟨"prod"⟩).host? ⟨"host-a"⟩ = none := by decide +kernel
  have lives : ((Projector.new.apply (event 1 0)).1.snapshot ⟨"prod"⟩).host? ⟨"host-a"⟩ =
      some ⟨∅, none, ∅, 1, ⟨0, 0⟩⟩ := by
    decide +kernel
  have returns := returns_after_reap_iff (Reachable.start.apply (event 1 0) trivial) lives
    removed (List.forall_mem_nil _) rfl rfl
    (rfl : (event 3 62).kind = .hostStarted ∅ none)
  exact ⟨answered, returns.1.mpr (Or.inl (by decide)), returns.2.1.mpr (Or.inl (by decide))⟩

/-- The next event of a host that has been reaped is its start, and is skipped. -/
theorem not_returns_after_reap_of_next_start :
    let event (sequence : UInt64) (second : Int) : LatticeEvent :=
      ⟨⟨"prod"⟩, ⟨"host-a"⟩, sequence, ⟨second, 0⟩, .hostStarted ∅ none⟩
    let reaped := ((HostReaper.new 30000000000 2).reap ⟨61, 0⟩ (Projector.new.apply (event 1 0)).1)
    reaped.2 = some [(⟨"prod"⟩, ⟨"host-a"⟩)] ∧ (reaped.1.apply (event 2 62)).2 = .skipped ∧
      ((reaped.1.apply (event 2 62)).1.snapshot ⟨"prod"⟩).host? ⟨"host-a"⟩ = none := by
  decide +kernel

end HostReaper

end Reconciler
