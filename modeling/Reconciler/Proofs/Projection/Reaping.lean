import Reconciler.Proofs.Observed.Retirement
import Reconciler.Proofs.Projection.Compaction
import Reconciler.Proofs.Projection.Snapshots

/-!
# Reaping

The reaper takes every host for stopped that has been silent too long. It says so with an event that
is numbered next after those of the host, and gives no answer if there is no such number for one of
them. The rest of the lattice stays as it is, except that the logs may be compacted on the way, and
then forget what had expired before the time of the reaping.
-/

namespace Reconciler

theorem LatticeEvent.lt_succ {mark : UInt64} (numbers : mark ≠ lastSequence) : mark < mark + 1 := by
  rw [UInt64.lt_iff_toNat_lt, UInt64.toNat_add]
  rw [ne_eq, ← UInt64.toNat_inj] at numbers
  have bound := mark.toNat_lt
  simp only [lastSequence, UInt64.reduceToNat] at numbers ⊢
  omega

/-- What is remembered of a host that is taken for stopped at a time. -/
def HostState.tombstone (host : HostState) (now : Timestamp) : Tombstone :=
  ⟨host.highWater + 1, host.bootEpoch, now⟩

namespace Standing

open HostReaper

variable {standing : Standing} {lattice : LatticeId} {id : HostId} {host : HostState}
  {now : Timestamp} {stop : LatticeEvent}

/-- A stop that the reaper gives to a live host is not held back. -/
theorem isStale_stop (lives : standing.live = some host)
    (given : stopEvent? lattice id host now = some stop) : standing.isStale stop = false := by
  rcases stopEvent?_eq_some_iff.mp given with ⟨numbers, rfl⟩
  rw [isStale, isRestart_eq_false rfl, if_neg Bool.false_ne_true, lives]
  exact decide_eq_false (UInt64.not_le.mpr (LatticeEvent.lt_succ numbers))

theorem after_stop (lives : standing.live = some host)
    (given : stopEvent? lattice id host now = some stop) :
    standing.after stop = .retired (host.tombstone now) := by
  rw [after, isStale_stop lives given, if_neg Bool.false_ne_true]
  rcases stopEvent?_eq_some_iff.mp given with ⟨numbers, rfl⟩
  have next : max host.highWater (host.highWater + 1) = host.highWater + 1 :=
    if_pos (UInt64.le_of_lt (LatticeEvent.lt_succ numbers))
  simp only [LatticeEvent.liveAfter, LatticeEvent.tombstoneAfter, lives, next]
  rfl

end Standing

namespace ObservedState

/--
A lattice before and after some hosts have been reaped. They are remembered as stopped, and the rest
is as it was; in both, what expired before the time of the reaping may be forgotten.
-/
structure Reaped (before after : ObservedState) (now : Timestamp) (ids : List HostId) : Prop where
  lattice : after.lattice = before.lattice
  gone : ∀ id ∈ ids, ∃ host, before.host? id = some host ∧
    (after.standing id).Forgets (.retired (host.tombstone now)) now
  rest : ∀ id, id ∉ ids → (after.standing id).Forgets (before.standing id) now
  links : ∀ key, after.link? key = before.link? key

namespace Reaped

variable {before middle after : ObservedState} {now : Timestamp} {first second : List HostId}

theorem refl (state : ObservedState) (now : Timestamp) : state.Reaped state now [] :=
  ⟨rfl, List.forall_mem_nil _, fun _ _ => .refl _ now, fun _ => rfl⟩

theorem host?_eq (reaped : before.Reaped after now first) {id : HostId} (stays : id ∉ first) :
    after.host? id = before.host? id :=
  (reaped.rest id stays).live

/-- Hosts may be reaped one after the other. -/
theorem trans (reaped : before.Reaped middle now first) (more : middle.Reaped after now second)
    (disjoint : first.Disjoint second) : before.Reaped after now (first ++ second) where
  lattice := more.lattice.trans reaped.lattice
  gone id member := by
    rcases List.mem_append.mp member with inFirst | inSecond
    · rcases reaped.gone id inFirst with ⟨host, found, remembered⟩
      exact ⟨host, found, (more.rest id (disjoint inFirst)).trans remembered⟩
    · rcases more.gone id inSecond with ⟨host, found, remembered⟩
      exact ⟨host, (reaped.host?_eq fun inFirst => disjoint inFirst inSecond) ▸ found, remembered⟩
  rest id stays := by
    rw [List.mem_append, not_or] at stays
    exact (more.rest id stays.2).trans (reaped.rest id stays.1)
  links key := (more.links key).trans (reaped.links key)

end Reaped

end ObservedState

namespace Projector

section

open HostReaper

variable {projector : Projector} {lattice : LatticeId} {id : HostId} {host : HostState}
  {now : Timestamp} {stop : LatticeEvent}

theorem apply_stop_snd (own : (projector.snapshot lattice).lattice = lattice)
    (found : (projector.snapshot lattice).host? id = some host)
    (given : stopEvent? lattice id host now = some stop) :
    (projector.apply stop).2 = .changed .lattice := by
  have fresh : ((projector.snapshot lattice).standing id).isStale stop = false :=
    Standing.isStale_stop found given
  rcases stopEvent?_eq_some_iff.mp given with ⟨_, rfl⟩
  rw [apply_snd, ObservedState.apply_snd, if_pos ⟨own.symm, fresh⟩]
  simp only [LatticeEvent.outcome, found, Option.isSome_some, if_true]

/-- The reaper removes a live host by its stop. -/
theorem reaped_apply_stop (two : 2 ≤ projector.limit)
    (own : (projector.snapshot lattice).lattice = lattice)
    (found : (projector.snapshot lattice).host? id = some host)
    (given : stopEvent? lattice id host now = some stop) :
    (projector.snapshot lattice).Reaped ((projector.apply stop).1.snapshot lattice) now [id] := by
  have stopped : ((projector.snapshot lattice).standing id).after stop =
      .retired (host.tombstone now) :=
    Standing.after_stop found given
  rcases stopEvent?_eq_some_iff.mp given with ⟨_, rfl⟩
  have forgets := forgets_snapshot_apply two
    ⟨lattice, id, host.highWater + 1, now, .hostStopped⟩
  refine ⟨forgets.lattice.trans (ObservedState.lattice_after _ _), ?_, ?_, ?_⟩
  · rw [List.forall_mem_singleton]
    have standing := forgets.standing id
    rw [ObservedState.standing_after, if_pos ⟨own.symm, rfl⟩, stopped] at standing
    exact ⟨host, found, standing⟩
  · intro other different
    have standing := forgets.standing other
    rw [ObservedState.standing_after,
      if_neg fun same => different (List.mem_singleton.mpr same.2)] at standing
    exact standing
  · intro key
    refine (forgets.links key).trans ?_
    rw [ObservedState.link?_after]
    rfl

end

end Projector

namespace HostReaper

open Projector

theorem mem_expired_iff {reaper : HostReaper} {state : ObservedState} {now : Timestamp}
    {id : HostId} :
    id ∈ reaper.expired state now ↔ ∃ host, state.host? id = some host ∧
      reaper.maximumAge < now.nanosSince host.lastSeen := by
  simp only [expired, SortedMap.mem_keys_iff, SortedMap.find?_filter, Option.filter_eq_some_iff,
    isExpired, ObservedState.host?, decide_eq_true_iff]

theorem nodup_expired (reaper : HostReaper) (state : ObservedState) (now : Timestamp) :
    (reaper.expired state now).Nodup :=
  SortedMap.nodup_keys _

section Hosts

variable {limit : Nat} {allowed : Timestamp → Prop} {now : Timestamp} {projector : Projector}
  {snapshot : ObservedState}

/-- The reaper takes a live host for stopped, and goes on with the rest. -/
theorem reapHosts_cons {id : HostId} {host : HostState} {stop : LatticeEvent}
    (own : (projector.snapshot snapshot.lattice).lattice = snapshot.lattice)
    (found : snapshot.host? id = some host)
    (inStep : (projector.snapshot snapshot.lattice).host? id = some host)
    (given : stopEvent? snapshot.lattice id host now = some stop) (rest : List HostId) :
    let after := reapHosts now snapshot (projector.apply stop).1 rest
    reapHosts now snapshot projector (id :: rest) = (after.1, after.2.map (id :: ·)) := by
  simp only [reapHosts, found, given, apply_stop_snd own inStep given]

/-- Reaping gives an answer unless it comes to a host that no number is left for. -/
theorem isSome_reapHosts_iff {ids : List HostId} :
    (reapHosts now snapshot projector ids).2.isSome = true ↔
      ∀ id ∈ ids, ∀ host, snapshot.host? id = some host →
        host.highWater ≠ LatticeEvent.lastSequence := by
  induction ids generalizing projector with
  | nil => simp [reapHosts]
  | cons id rest ih =>
      rw [reapHosts, List.forall_mem_cons]
      cases found : snapshot.host? id with
      | none => simp [ih]
      | some host =>
          simp only
          cases given : stopEvent? snapshot.lattice id host now with
          | none => simp [stopEvent?_eq_none_iff.mp given]
          | some stop =>
              have numbers := (stopEvent?_eq_some_iff.mp given).1
              simp only
              split <;> simp [ih, numbers]

/-- Reaping hosts of one lattice leaves the other lattices alone. -/
theorem snapshot_reapHosts_of_ne {other : LatticeId} (different : other ≠ snapshot.lattice)
    (ids : List HostId) :
    (reapHosts now snapshot projector ids).1.snapshot other = projector.snapshot other := by
  induction ids generalizing projector with
  | nil => rfl
  | cons id rest ih =>
      rw [reapHosts]
      cases snapshot.host? id with
      | none => exact ih
      | some host =>
          simp only
          cases given : stopEvent? snapshot.lattice id host now with
          | none => rfl
          | some stop =>
              have addressed : other ≠ stop.lattice := by
                rw [(stopEvent?_eq_some_iff.mp given).2]
                exact different
              have stepped : (reapHosts now snapshot (projector.apply stop).1 rest).1.snapshot
                  other = projector.snapshot other :=
                ih.trans (snapshot_apply_of_ne addressed)
              simp only
              split <;> exact stepped

/--
Reaping live hosts of one lattice as they stand in a snapshot removes the first of them, and all of
them if it answers.
-/
theorem reapHosts_spec (snapshot : ObservedState) (time : allowed now)
    (reachable : Reachable limit allowed projector) {ids : List HostId} (nodup : ids.Nodup)
    (live : ∀ id ∈ ids, ∃ host, snapshot.host? id = some host)
    (inStep : ∀ id ∈ ids, (projector.snapshot snapshot.lattice).host? id = snapshot.host? id) :
    ∃ removed, removed <+: ids ∧
      (projector.snapshot snapshot.lattice).Reaped
        ((reapHosts now snapshot projector ids).1.snapshot snapshot.lattice) now removed ∧
      ∀ hosts, (reapHosts now snapshot projector ids).2 = some hosts →
        hosts = ids ∧ removed = ids := by
  induction ids generalizing projector with
  | nil => exact ⟨[], List.nil_prefix, .refl _ now, fun _ answered =>
      ⟨(Option.some.inj answered).symm, rfl⟩⟩
  | cons id rest ih =>
      rcases List.nodup_cons.mp nodup with ⟨notAgain, restNodup⟩
      rcases List.forall_mem_cons.mp live with ⟨⟨host, found⟩, restLive⟩
      rcases List.forall_mem_cons.mp inStep with ⟨idInStep, restInStep⟩
      have own := reachable.lattice_snapshot snapshot.lattice
      cases given : stopEvent? snapshot.lattice id host now with
      | none =>
          simp only [reapHosts, found, given]
          exact ⟨[], List.nil_prefix, .refl _ now, fun _ answered => by cases answered⟩
      | some stop =>
          have first := reaped_apply_stop reachable.two_le_limit own (idInStep.trans found) given
          have atNow : allowed stop.occurredAt := by
            rw [(stopEvent?_eq_some_iff.mp given).2]
            exact time
          have apart : ∀ other ∈ rest, other ∉ [id] :=
            fun other member isFirst => notAgain (List.mem_singleton.mp isFirst ▸ member)
          rcases ih (reachable.apply stop atNow) restNodup restLive (fun other member =>
            (first.host?_eq (apart other member)).trans (restInStep other member)) with
            ⟨more, isPrefix, reaped, answers⟩
          rw [reapHosts_cons own found (idInStep.trans found) given]
          refine ⟨id :: more, List.cons_prefix_cons.mpr ⟨rfl, isPrefix⟩, first.trans reaped ?_, ?_⟩
          · exact fun _ isFirst inMore => apart _ (isPrefix.subset inMore) isFirst
          · intro hosts answered
            rcases Option.map_eq_some_iff.mp answered with ⟨_, restAnswered, rfl⟩
            rcases answers _ restAnswered with ⟨rfl, rfl⟩
            exact ⟨rfl, rfl⟩

end Hosts

theorem reachable_reapHosts {limit : Nat} {allowed : Timestamp → Prop} {now : Timestamp}
    {projector : Projector} (time : allowed now) (reachable : Reachable limit allowed projector)
    (snapshot : ObservedState) (ids : List HostId) :
    Reachable limit allowed (reapHosts now snapshot projector ids).1 :=
  reapHosts_induction (fun _ event atNow before => before.apply event (atNow ▸ time)) snapshot
    reachable ids

section Lattices

variable {limit : Nat} {allowed : Timestamp → Prop} {now : Timestamp} {projector : Projector}
  {reaper : HostReaper} {lattice : LatticeId} {lattices : List LatticeId}

/-- Reaping a lattice leaves all others as they are, and leads to a reachable projector. -/
theorem reap_first (reaper : HostReaper) (time : allowed now)
    (reachable : Reachable limit allowed projector) (notAgain : lattice ∉ lattices) :
    let next := (reapHosts now (projector.snapshot lattice) projector
      (reaper.expired (projector.snapshot lattice) now)).1
    Reachable limit allowed next ∧ ∀ other ∈ lattices,
      next.snapshot other = projector.snapshot other := by
  refine ⟨reachable_reapHosts time reachable _ _,
    fun other member => snapshot_reapHosts_of_ne ?_ _⟩
  rw [reachable.lattice_snapshot]
  exact fun same => notAgain (same ▸ member)

theorem isSome_reapLattices_iff (time : allowed now) (reachable : Reachable limit allowed projector)
    (nodup : lattices.Nodup) :
    (reaper.reapLattices now projector lattices).2.isSome = true ↔
      ∀ lattice ∈ lattices, ∀ id ∈ reaper.expired (projector.snapshot lattice) now,
        ∀ host, (projector.snapshot lattice).host? id = some host →
          host.highWater ≠ LatticeEvent.lastSequence := by
  induction lattices generalizing projector with
  | nil => simp [reapLattices]
  | cons lattice rest ih =>
      rcases List.nodup_cons.mp nodup with ⟨notAgain, restNodup⟩
      rcases reap_first reaper time reachable notAgain with ⟨nextReachable, same⟩
      have first : (reapHosts now (projector.snapshot lattice) projector
          (reaper.expired (projector.snapshot lattice) now)).2.isSome = true ↔ _ :=
        isSome_reapHosts_iff
      rw [reapLattices, List.forall_mem_cons, ← first]
      clear first
      simp only
      generalize reapHosts now (projector.snapshot lattice) projector
        (reaper.expired (projector.snapshot lattice) now) = step at *
      rcases step with ⟨next, _ | hosts⟩
      · simp
      · have later := ih nextReachable restNodup
        simp only [Option.isSome_map, Option.isSome_some, true_and, later]
        exact forall₂_congr fun other member => by rw [same other member]

theorem snapshot_reapLattices_of_not_mem (time : allowed now)
    (reachable : Reachable limit allowed projector) (unlisted : lattice ∉ lattices) :
    (reaper.reapLattices now projector lattices).1.snapshot lattice =
      projector.snapshot lattice := by
  induction lattices generalizing projector with
  | nil => rfl
  | cons head rest ih =>
      rw [List.mem_cons, not_or] at unlisted
      have other : lattice ≠ (projector.snapshot head).lattice := by
        rw [reachable.lattice_snapshot]
        exact unlisted.1
      have same : (reapHosts now (projector.snapshot head) projector
          (reaper.expired (projector.snapshot head) now)).1.snapshot lattice = _ :=
        snapshot_reapHosts_of_ne other _
      have nextReachable := reachable_reapHosts time reachable (projector.snapshot head)
        (reaper.expired (projector.snapshot head) now)
      rw [reapLattices]
      simp only
      generalize reapHosts now (projector.snapshot head) projector
        (reaper.expired (projector.snapshot head) now) = step at *
      rcases step with ⟨next, _ | hosts⟩
      · exact same
      · exact (ih nextReachable unlisted.2).trans same

/-- Reaping some lattices removes silent hosts of them, and if it answers, all, in order. -/
theorem reapLattices_spec (time : allowed now) (reachable : Reachable limit allowed projector)
    (nodup : lattices.Nodup) :
    let after := reaper.reapLattices now projector lattices
    (∀ removed, after.2 = some removed → removed = lattices.flatMap fun lattice =>
      (reaper.expired (projector.snapshot lattice) now).map (lattice, ·)) ∧
    ∀ lattice ∈ lattices, ∃ removed,
      removed <+: reaper.expired (projector.snapshot lattice) now ∧
      (projector.snapshot lattice).Reaped (after.1.snapshot lattice) now removed ∧
      (after.2.isSome = true → removed = reaper.expired (projector.snapshot lattice) now) := by
  induction lattices generalizing projector with
  | nil => exact ⟨fun _ answered => (Option.some.inj answered).symm, List.forall_mem_nil _⟩
  | cons lattice rest ih =>
      rcases List.nodup_cons.mp nodup with ⟨notAgain, restNodup⟩
      rcases reap_first reaper time reachable notAgain with ⟨nextReachable, same⟩
      have own := reachable.lattice_snapshot lattice
      have live : ∀ id ∈ reaper.expired (projector.snapshot lattice) now,
          ∃ host, (projector.snapshot lattice).host? id = some host := by
        intro id member
        rcases mem_expired_iff.mp member with ⟨host, found, _⟩
        exact ⟨host, found⟩
      have hosts := reapHosts_spec (projector.snapshot lattice) time reachable
        (reaper.nodup_expired (projector.snapshot lattice) now) live (own.symm ▸ fun _ _ => rfl)
      rw [own] at hosts
      rw [reapLattices]
      simp only
      generalize reapHosts now (projector.snapshot lattice) projector
        (reaper.expired (projector.snapshot lattice) now) = step at *
      rcases step with ⟨next, _ | answer⟩
      · -- The reaper breaks off in this lattice, and does not come to the others.
        refine ⟨fun _ answered => ?_,
          List.forall_mem_cons.mpr ⟨?_, fun other member => ?_⟩⟩
        · cases answered
        · rcases hosts with ⟨removed, isPrefix, reaped, _⟩
          exact ⟨removed, isPrefix, reaped, Bool.noConfusion⟩
        · refine ⟨[], List.nil_prefix, ?_, Bool.noConfusion⟩
          rw [same other member]
          exact .refl _ now
      · rcases hosts with ⟨removed, isPrefix, reaped, answers⟩
        rcases answers answer rfl with ⟨rfl, rfl⟩
        rcases ih nextReachable restNodup with ⟨restAnswers, restReaped⟩
        refine ⟨fun removed answered => ?_,
          List.forall_mem_cons.mpr ⟨?_, fun other member => ?_⟩⟩
        · rcases Option.map_eq_some_iff.mp answered with ⟨more, restAnswered, rfl⟩
          rw [restAnswers more restAnswered, List.flatMap_cons,
            List.flatMap_congr fun other member => by rw [same other member]]
        · refine ⟨_, isPrefix, ?_, fun _ => rfl⟩
          rw [snapshot_reapLattices_of_not_mem time nextReachable notAgain]
          exact reaped
        · rw [← same other member]
          simpa using restReaped other member

end Lattices

section

variable {limit : Nat} {allowed : Timestamp → Prop} {now : Timestamp} {projector : Projector}
  {reaper : HostReaper}

/-- Reaping gives an answer unless a host has been silent too long that no number is left for. -/
theorem isSome_reap_iff (time : allowed now) (reachable : Reachable limit allowed projector) :
    (reaper.reap now projector).2.isSome = true ↔
      ∀ lattice id host, (projector.snapshot lattice).host? id = some host →
        reaper.maximumAge < now.nanosSince host.lastSeen →
          host.highWater ≠ LatticeEvent.lastSequence := by
  rw [reap, isSome_reapLattices_iff time reachable projector.nodup_lattices]
  constructor
  · intro numbers lattice id host found silent
    refine numbers lattice ?_ id (mem_expired_iff.mpr ⟨host, found, silent⟩) host found
    by_contra unknown
    rw [snapshot_of_not_mem unknown] at found
    cases found
  · intro numbers lattice _ id member host found
    rcases mem_expired_iff.mp member with ⟨other, otherFound, silent⟩
    obtain rfl : other = host := Option.some.inj (otherFound.symm.trans found)
    exact numbers lattice id other found silent

/--
Reaping removes silent hosts, whether or not it gives an answer, and leaves the rest of every
lattice as it is.
-/
theorem reaped_reap (time : allowed now) (reachable : Reachable limit allowed projector)
    (reaper : HostReaper) (lattice : LatticeId) :
    ∃ removed, removed <+: reaper.expired (projector.snapshot lattice) now ∧
      (projector.snapshot lattice).Reaped ((reaper.reap now projector).1.snapshot lattice) now
        removed ∧
      ((reaper.reap now projector).2.isSome = true →
        removed = reaper.expired (projector.snapshot lattice) now) := by
  by_cases known : lattice ∈ projector.lattices
  · exact (reapLattices_spec time reachable projector.nodup_lattices).2 lattice known
  · rw [reap, snapshot_reapLattices_of_not_mem time reachable known, snapshot_of_not_mem known]
    exact ⟨[], List.nil_prefix, .refl _ now, fun _ => rfl⟩

/-- A host that reaping has removed is remembered as stopped, if it is not forgotten. -/
theorem forgets_of_removed (time : allowed now) (reachable : Reachable limit allowed projector)
    {lattice : LatticeId} {id : HostId} {host : HostState}
    (lives : (projector.snapshot lattice).host? id = some host)
    (removed : ((reaper.reap now projector).1.snapshot lattice).host? id = none) :
    (((reaper.reap now projector).1.snapshot lattice).standing id).Forgets
      (.retired (host.tombstone now)) now := by
  rcases reaped_reap time reachable reaper lattice with ⟨ids, _, reaped, _⟩
  by_cases gone : id ∈ ids
  · rcases reaped.gone id gone with ⟨_, found, remembered⟩
    obtain rfl := Option.some.inj (lives.symm.trans found)
    exact remembered
  · cases removed.symm.trans ((reaped.host?_eq gone).trans lives)

variable {removed : List (LatticeId × HostId)}

/-- Reaping that answers removes the silent hosts. -/
theorem reaped_of_answered (time : allowed now) (reachable : Reachable limit allowed projector)
    (answered : (reaper.reap now projector).2 = some removed) (lattice : LatticeId) :
    (projector.snapshot lattice).Reaped ((reaper.reap now projector).1.snapshot lattice) now
      (reaper.expired (projector.snapshot lattice) now) := by
  rcases reaped_reap time reachable reaper lattice with ⟨ids, _, reaped, all⟩
  rwa [all (Option.isSome_of_eq_some answered)] at reaped

theorem mem_reap_iff (time : allowed now) (reachable : Reachable limit allowed projector)
    (answered : (reaper.reap now projector).2 = some removed) {lattice : LatticeId} {id : HostId} :
    (lattice, id) ∈ removed ↔ id ∈ reaper.expired (projector.snapshot lattice) now := by
  rw [(reapLattices_spec time reachable projector.nodup_lattices).1 _ answered, List.mem_flatMap]
  simp only [List.mem_map, Prod.mk.injEq]
  constructor
  · rintro ⟨_, _, _, member, rfl, rfl⟩
    exact member
  · intro member
    refine ⟨lattice, ?_, id, member, rfl, rfl⟩
    by_contra unknown
    rcases mem_expired_iff.mp member with ⟨host, found, _⟩
    rw [snapshot_of_not_mem unknown] at found
    cases found

/-- A pair of a lattice and a host comes first by its lattice and then by its host. -/
def Precedes (first second : LatticeId × HostId) : Prop :=
  compare first.1 second.1 = .lt ∨ first.1 = second.1 ∧ compare first.2 second.2 = .lt

theorem sorted_reap (time : allowed now) (reachable : Reachable limit allowed projector)
    (answered : (reaper.reap now projector).2 = some removed) : removed.Pairwise Precedes := by
  rw [(reapLattices_spec time reachable projector.nodup_lattices).1 _ answered,
    List.pairwise_flatMap]
  constructor
  · intro lattice _
    refine List.pairwise_map.mpr ?_
    exact (SortedMap.pairwise_keys _).imp fun before => Or.inr ⟨rfl, before⟩
  · refine projector.logs.pairwise_keys.imp ?_
    intro first second before one inFirst other inSecond
    rcases List.mem_map.mp inFirst with ⟨_, _, rfl⟩
    rcases List.mem_map.mp inSecond with ⟨_, _, rfl⟩
    exact Or.inl before

/-- Reaping that answers leaves nobody who has been silent too long. -/
theorem not_silent_after_reap (time : allowed now) (reachable : Reachable limit allowed projector)
    (answered : (reaper.reap now projector).2 = some removed) {lattice : LatticeId} {id : HostId}
    {host : HostState}
    (found : ((reaper.reap now projector).1.snapshot lattice).host? id = some host) :
    ¬reaper.maximumAge < now.nanosSince host.lastSeen := by
  intro silent
  have reaped := reaped_of_answered time reachable answered lattice
  by_cases gone : id ∈ reaper.expired (projector.snapshot lattice) now
  · rcases reaped.gone id gone with ⟨_, _, remembered⟩
    cases found.symm.trans remembered.live
  · exact gone (mem_expired_iff.mpr ⟨host, (reaped.host?_eq gone).symm.trans found, silent⟩)

/-- Reaping at a time leaves nothing to reap at that time. -/
theorem reap_reap (time : allowed now) (reachable : Reachable limit allowed projector)
    (answered : (reaper.reap now projector).2 = some removed) :
    (reaper.reap now (reaper.reap now projector).1).2 = some [] := by
  have nextReachable := reachable.reap reaper now time
  have answersAgain : (reaper.reap now (reaper.reap now projector).1).2.isSome = true :=
    (isSome_reap_iff time nextReachable).mpr fun _ _ _ found silent =>
      absurd silent (not_silent_after_reap time reachable answered found)
  rcases Option.isSome_iff_exists.mp answersAgain with ⟨again, answeredAgain⟩
  rw [answeredAgain, Option.some.injEq]
  apply List.eq_nil_iff_forall_not_mem.mpr
  rintro ⟨lattice, id⟩ member
  rcases mem_expired_iff.mp ((mem_reap_iff time nextReachable answeredAgain).mp member) with
    ⟨host, found, silent⟩
  exact not_silent_after_reap time reachable answered found silent

end

/--
What it means that the reaper has removed some hosts: they are those hosts that have been silent for
longer than an age. They no longer live, and the rest is as it was, but that what had expired may be
forgotten.
-/
structure Removes (age : Nat) (now : Timestamp) (before after : Projector)
    (removed : List (LatticeId × HostId)) : Prop where
  mem_iff : ∀ lattice id, (lattice, id) ∈ removed ↔
    ∃ host, (before.snapshot lattice).host? id = some host ∧ age < now.nanosSince host.lastSeen
  sorted : removed.Pairwise Precedes
  gone : ∀ lattice id, (lattice, id) ∈ removed → (after.snapshot lattice).host? id = none
  rest : ∀ lattice id, (lattice, id) ∉ removed →
    ((after.snapshot lattice).standing id).Forgets ((before.snapshot lattice).standing id) now
  links : ∀ lattice key, (after.snapshot lattice).link? key = (before.snapshot lattice).link? key

section

variable {limit : Nat} {allowed : Timestamp → Prop} {now : Timestamp} {projector : Projector}
  {reaper : HostReaper} {removed : List (LatticeId × HostId)}

theorem removes_reap (time : allowed now) (reachable : Reachable limit allowed projector)
    (answered : (reaper.reap now projector).2 = some removed) :
    Removes reaper.maximumAge now projector (reaper.reap now projector).1 removed where
  mem_iff lattice id := (mem_reap_iff time reachable answered).trans mem_expired_iff
  sorted := sorted_reap time reachable answered
  gone lattice id member := by
    rcases (reaped_of_answered time reachable answered lattice).gone id
      ((mem_reap_iff time reachable answered).mp member) with ⟨_, _, remembered⟩
    exact remembered.live
  rest lattice id notRemoved :=
    (reaped_of_answered time reachable answered lattice).rest id
      (mt (mem_reap_iff time reachable answered).mpr notRemoved)
  links lattice := (reaped_of_answered time reachable answered lattice).links

/-- A host that is reaped at a time that tombstones can expire at is remembered. -/
theorem retired_reap (time : allowed now) (reachable : Reachable limit allowed projector)
    (answered : (reaper.reap now projector).2 = some removed) (ordinary : now ≤ .latest)
    {lattice : LatticeId} {id : HostId} (member : (lattice, id) ∈ removed) :
    ∃ host, (projector.snapshot lattice).host? id = some host ∧
      ((reaper.reap now projector).1.snapshot lattice).standing id =
        .retired (host.tombstone now) := by
  rcases (reaped_of_answered time reachable answered lattice).gone id
    ((mem_reap_iff time reachable answered).mp member) with ⟨host, found, remembered⟩
  refine ⟨host, found, ?_⟩
  rcases remembered.tombstone with same | ⟨_, expired⟩
  · exact congrArg₂ Standing.mk remembered.live same
  · have fresh : now ≤ (host.tombstone now).expiresAt :=
      (Timestamp.le_addSeconds_iff (by decide)).mpr ordinary
    exact absurd (expired _ rfl) (not_lt_of_ge fresh)

end

/-- A silent host and a host that stopped long ago, in a log that has no room for another event. -/
def fullLog : Projector :=
  (withLimit 3).afterAll [.birth ⟨"lattice"⟩ ⟨"host-a"⟩ ⟨0, 0⟩,
    .birth ⟨"lattice"⟩ ⟨"host-b"⟩ ⟨0, 0⟩, .death ⟨"lattice"⟩ ⟨"host-b"⟩ ⟨0, 0⟩]

theorem hosts_fullLog :
    (fullLog.snapshot ⟨"lattice"⟩).hosts.entries = [(⟨"host-a"⟩, ⟨∅, none, ∅, 1, ⟨0, 0⟩⟩)] := by
  decide +kernel

theorem retired_fullLog :
    (fullLog.snapshot ⟨"lattice"⟩).retired.entries = [(⟨"host-b"⟩, ⟨2, none, ⟨0, 0⟩⟩)] := by
  decide +kernel

theorem host?_fullLog :
    (fullLog.snapshot ⟨"lattice"⟩).host? ⟨"host-a"⟩ = some ⟨∅, none, ∅, 1, ⟨0, 0⟩⟩ := by
  simp [ObservedState.host?, SortedMap.find?, hosts_fullLog]

theorem standing_fullLog : (fullLog.snapshot ⟨"lattice"⟩).standing ⟨"host-a"⟩ = .alive ⟨0, 0⟩ := by
  refine congrArg₂ Standing.mk host?_fullLog ?_
  simp [SortedMap.find?, retired_fullLog]

theorem reachable_fullLog : Reachable 3 (fun _ => True) fullLog :=
  Reachable.start.afterAll fun _ _ => trivial

theorem reap_fullLog {now : Timestamp} (silent : 0 < now.nanosSince ⟨0, 0⟩) :
    (new 0 0).reap now fullLog =
      ((fullLog.apply (.death ⟨"lattice"⟩ ⟨"host-a"⟩ now)).1,
        some [(⟨"lattice"⟩, ⟨"host-a"⟩)]) := by
  have lattices : fullLog.lattices = [⟨"lattice"⟩] := by decide +kernel
  have own := reachable_fullLog.lattice_snapshot ⟨"lattice"⟩
  have expired : (new 0 0).expired (fullLog.snapshot ⟨"lattice"⟩) now = [⟨"host-a"⟩] := by
    simp [expired, SortedMap.keys, SortedMap.filter, hosts_fullLog, isExpired, new, silent]
  have given : stopEvent? (fullLog.snapshot ⟨"lattice"⟩).lattice ⟨"host-a"⟩
      ⟨∅, none, ∅, 1, ⟨0, 0⟩⟩ now = some (.death ⟨"lattice"⟩ ⟨"host-a"⟩ now) := by
    rw [own]
    exact stopEvent?_eq_some_iff.mpr ⟨by decide, rfl⟩
  have cons := reapHosts_cons (own.symm ▸ own) host?_fullLog (own.symm ▸ host?_fullLog) given []
  rw [reap, lattices]
  simp only [reapLattices, expired, cons, reapHosts]
  rfl

/-- Past all expiries, a host is forgotten as it is reaped, if a log is compacted on the way. -/
theorem not_retired_reap_fullLog {now : Timestamp} (past : ¬now ≤ .latest) :
    ((new 0 0).reap now fullLog).2 = some [(⟨"lattice"⟩, ⟨"host-a"⟩)] ∧
      ⟨"host-a"⟩ ∉ (((new 0 0).reap now fullLog).1.snapshot ⟨"lattice"⟩).retiredHosts := by
  rw [reap_fullLog (Timestamp.nanosSince_pos_of_past past)]
  refine ⟨rfl, ?_⟩
  -- The tombstone of the other host has expired, so that compaction looks for such tombstones.
  have expired : (fullLog.snapshot ⟨"lattice"⟩).prunedCount now ≠ 0 := by
    have expiry : (⟨2, none, ⟨0, 0⟩⟩ : Tombstone).expiresAt = ⟨3600, 0⟩ := by decide
    have later : ¬now ≤ ⟨3600, 0⟩ := fun early => past (le_trans early (by decide))
    simp [ObservedState.prunedCount, ObservedState.pruneRetired, SortedMap.size, SortedMap.filter,
      retired_fullLog, expiry, later]
  have rebuilds : (fullLog.log ⟨"lattice"⟩).rebuild = fullLog.snapshot ⟨"lattice"⟩ := by
    decide +kernel
  have pruned : (fullLog.apply (.death ⟨"lattice"⟩ ⟨"host-a"⟩ now)).1.snapshot ⟨"lattice"⟩ =
      ((fullLog.snapshot ⟨"lattice"⟩).after (.death ⟨"lattice"⟩ ⟨"host-a"⟩ now)).pruneRetired
        now := by
    have limit : fullLog.limit = 3 := reachable_fullLog.limit_eq
    have full : (fullLog.log ⟨"lattice"⟩).tail.length = 3 := by decide +kernel
    rw [snapshot, log_apply, LatticeEvent.death_lattice, if_pos rfl, limit]
    exact LatticeLog.current_append_of_full full rfl (rebuilds ▸ expired)
  have forgotten : (((fullLog.snapshot ⟨"lattice"⟩).after
      (.death ⟨"lattice"⟩ ⟨"host-a"⟩ now)).pruneRetired now).standing ⟨"host-a"⟩ = .unknown := by
    rw [ObservedState.standing_pruneRetired, ObservedState.standing_after,
      if_pos ⟨(reachable_fullLog.lattice_snapshot _).symm, rfl⟩, standing_fullLog,
      Standing.alive_after_death, Standing.prune_dead past]
  rw [pruned]
  intro retired
  rcases SortedMap.mem_keys_iff.mp retired with ⟨tombstone, remembered⟩
  have unknown := congrArg Standing.tombstone forgotten
  exact Option.some_ne_none tombstone (remembered.symm.trans unknown)

/--
Reaping gives an answer exactly if a number is left for each host that has been silent for too long.
Then it removes exactly those hosts, in order, and it leaves nothing to reap at the same time. All
of them are remembered as stopped, whatever has happened before, exactly if the time of the reaping
is one that a tombstone can expire at.
-/
theorem reap_exact_iff (now : Timestamp) :
    (∀ limit projector, Reachable limit (fun _ => True) projector → ∀ interval intervals,
      let reaper := new interval intervals
      let after := reaper.reap now projector
      (after.2.isSome = true ↔
        ∀ lattice id host, (projector.snapshot lattice).host? id = some host →
          interval * max intervals 1 < now.nanosSince host.lastSeen →
            host.highWater ≠ LatticeEvent.lastSequence) ∧
      ∀ removed, after.2 = some removed →
        Removes (interval * max intervals 1) now projector after.1 removed ∧
          (reaper.reap now after.1).2 = some []) ∧
    ((∀ limit projector, Reachable limit (fun _ => True) projector → ∀ interval intervals,
      let after := (new interval intervals).reap now projector
      ∀ removed, after.2 = some removed → ∀ lattice id, (lattice, id) ∈ removed →
        id ∈ (after.1.snapshot lattice).retiredHosts) ↔
      now ≤ .latest) := by
  refine ⟨fun limit projector reachable interval intervals => ⟨?_, fun removed answered => ?_⟩,
    ?_, ?_⟩
  · exact isSome_reap_iff trivial reachable
  · exact ⟨removes_reap trivial reachable answered, reap_reap trivial reachable answered⟩
  · intro retired
    by_contra past
    rcases not_retired_reap_fullLog past with ⟨answered, notRetired⟩
    exact notRetired (retired 3 fullLog reachable_fullLog 0 0 _ answered _ _
      (List.mem_singleton_self _))
  · intro ordinary limit projector reachable interval intervals after removed answered lattice id
      member
    rcases retired_reap trivial reachable answered ordinary member with ⟨host, _, retired⟩
    exact SortedMap.mem_keys_iff.mpr ⟨_, congrArg Standing.tombstone retired⟩

/--
A silent host whose last event has the highest number is not reaped: there is no answer, and the
host stays.
-/
theorem not_reaped_of_lastSequence :
    let start : LatticeEvent := ⟨⟨"prod"⟩, ⟨"host-a"⟩, LatticeEvent.lastSequence, ⟨0, 0⟩,
      .hostStarted ∅ none⟩
    let reaper := HostReaper.new 30000000000 2
    let started := (Projector.new.apply start).1
    let after := reaper.reap ⟨61, 0⟩ started
    reaper.expired (started.snapshot ⟨"prod"⟩) ⟨61, 0⟩ = [⟨"host-a"⟩] ∧ after.2 = none ∧
      ((after.1.snapshot ⟨"prod"⟩).host? ⟨"host-a"⟩).isSome = true := by
  decide +kernel

end HostReaper

end Reconciler
