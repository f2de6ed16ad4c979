import Reconciler.Proofs.Observed.Forgetting
import Reconciler.Proofs.Observed.Lifetime
import Reconciler.Proofs.Projection.Logs

/-!
# Logs past all expiries

Past the last point in time that a tombstone can expire at, a tombstone has expired before the stop
that it remembers. For every limit there is then a run of two hosts after which the state rebuilt
from a log is not the state of the log: one host dies and is folded into the base, the other dies as
the log is compacted. The log forgets both deaths, and rebuilding brings the second one back.
-/

namespace Reconciler

namespace ObservedState

open LatticeEvent

section

variable (lattice : LatticeId) (first second : HostId) (time : Timestamp)

/-- The state in which the second host has been born. -/
def settled : ObservedState :=
  (empty lattice).after (.birth lattice second time)

/-- The state in which both hosts have been born. -/
def joined : ObservedState :=
  (settled lattice second time).after (.birth lattice first time)

/-- The state in which both hosts have been born and the first has died. -/
def parted : ObservedState :=
  (joined lattice first second time).after (.death lattice first time)

@[simp]
theorem lattice_parted : (parted lattice first second time).lattice = lattice := by
  simp [parted, joined, settled, empty]

theorem standing_settled (id : HostId) :
    (settled lattice second time).standing id = if id = second then .alive time else .unknown := by
  rw [settled, standing_after, standing_empty, Standing.unknown_after_birth]
  simp [empty]

theorem standing_joined (distinct : first ≠ second) (id : HostId) :
    (joined lattice first second time).standing id =
      if id = first ∨ id = second then .alive time else .unknown := by
  rw [joined, standing_after, standing_settled]
  by_cases isFirst : id = first
  · simp [isFirst, distinct, settled, empty, Standing.unknown_after_birth]
  · simp [isFirst]

theorem standing_parted (distinct : first ≠ second) (id : HostId) :
    (parted lattice first second time).standing id =
      if id = first then .dead time else if id = second then .alive time else .unknown := by
  rw [parted, standing_after, standing_joined lattice first second time distinct]
  by_cases isFirst : id = first
  · simp [isFirst, joined, settled, empty, Standing.alive_after_death]
  · simp [isFirst]

end

variable {lattice : LatticeId} {first second : HostId} {time : Timestamp}

/-- Pruning before a time changes nothing as long as no host has stopped. -/
theorem pruneRetired_settled :
    (settled lattice second time).pruneRetired time = settled lattice second time := by
  apply ext_standing
  · rfl
  · intro id
    rw [standing_pruneRetired, standing_settled]
    split <;> rfl
  · intro key
    rfl

/-- Births of the second host, one or more of them, settle the state. -/
theorem afterAll_births {count : Nat} (some : count ≠ 0) :
    (empty lattice).afterAll (births lattice second time count) = settled lattice second time := by
  rcases Nat.exists_eq_succ_of_ne_zero some with ⟨rest, rfl⟩
  have lives : (settled lattice second time).standing second = .alive time := by
    rw [standing_settled, if_pos rfl]
  exact afterAll_births_of_alive lives rest

/-- Births of the second host change nothing once the first has died. -/
theorem afterAll_joined (distinct : first ≠ second) (count : Nat) :
    (joined lattice first second time).afterAll
        (.death lattice first time :: births lattice second time count) =
      parted lattice first second time := by
  have lives : (parted lattice first second time).standing second = .alive time := by
    rw [standing_parted lattice first second time distinct, if_neg distinct.symm, if_pos rfl]
  rw [afterAll_cons, ← parted, afterAll_births_of_alive lives]

end ObservedState

namespace LatticeLog

open LatticeEvent ObservedState

/--
A run that fills a log twice over at one time. The second host lives from the start, and its birth
comes again and again. The first host is born as the log is compacted, and dies afterwards.
-/
def crowded (lattice : LatticeId) (first second : HostId) (time : Timestamp) (limit : Nat) :
    List LatticeEvent :=
  births lattice second time limit ++ birth lattice first time :: death lattice first time ::
    births lattice second time (limit - limit / 2 - 1)

variable {lattice : LatticeId} {first second : HostId} {time : Timestamp} {limit : Nat}

theorem mem_crowded {event : LatticeEvent}
    (member : event ∈ crowded lattice first second time limit) :
    event.lattice = lattice ∧ event.occurredAt = time := by
  simp only [crowded, births, List.mem_append, List.mem_cons, List.mem_replicate] at member
  rcases member with ⟨_, rfl⟩ | rfl | rfl | ⟨_, rfl⟩ <;> exact ⟨rfl, rfl⟩

theorem earliest?_births (count : Nat) {event : LatticeEvent} (atTime : event.occurredAt = time) :
    earliest? (births lattice second time count ++ [event]) = some time := by
  apply earliest?_of_forall
  · simp
  · intro other member
    simp only [births, List.mem_append, List.mem_replicate, List.mem_singleton] at member
    rcases member with ⟨_, rfl⟩ | rfl
    · rfl
    · exact atTime

/-- The first compaction folds births of the second host into the base and forgets nothing. -/
theorem append_birth (two : 2 ≤ limit) :
    ((⟨.empty lattice, births lattice second time limit, settled lattice second time⟩ :
        LatticeLog).append (birth lattice first time) limit).1 =
      ⟨settled lattice second time,
        births lattice second time (limit / 2 - 1) ++ [birth lattice first time],
        joined lattice first second time⟩ := by
  have halves : births lattice second time limit ++ [birth lattice first time] =
      births lattice second time (limit - limit / 2 + 1) ++
        (births lattice second time (limit / 2 - 1) ++ [birth lattice first time]) := by
    rw [← List.append_assoc, births_append_births]
    congr 2
    omega
  simp only [append_fst]
  rw [halves, compact_append _ _ (earliest?_births _ (birth_occurredAt lattice first time)),
    afterAll_births (by omega), pruneRetired_settled,
    if_pos (prunedCount_eq_zero_iff.mpr pruneRetired_settled)]
  · rfl
  · simp
    omega
  · simp
    omega

/-- The log after the run is full, and its base knows nothing of the first host. -/
theorem appendAll_crowded (distinct : first ≠ second) (two : 2 ≤ limit) :
    (empty lattice).appendAll (crowded lattice first second time limit) limit =
      ⟨settled lattice second time,
        births lattice second time (limit / 2 - 1) ++ birth lattice first time ::
          death lattice first time :: births lattice second time (limit - limit / 2 - 1),
        parted lattice first second time⟩ := by
  have filled : (empty lattice).appendAll (births lattice second time limit) limit =
      ⟨.empty lattice, births lattice second time limit, settled lattice second time⟩ := by
    rw [appendAll_of_short (by simp [empty])]
    simp [empty, afterAll_births (show limit ≠ 0 by omega)]
  rw [crowded, appendAll_append, filled, appendAll_cons, append_birth two, appendAll_of_short,
    afterAll_joined distinct, List.append_assoc, List.singleton_append]
  simp
  omega

/-- What the second compaction folds away are the first host's life and births of the second. -/
theorem afterAll_folded (distinct : first ≠ second) (before after : Nat) :
    (settled lattice second time).afterAll
        (births lattice second time before ++ birth lattice first time ::
          death lattice first time :: births lattice second time after) =
      parted lattice first second time := by
  have lives : (settled lattice second time).standing second = .alive time := by
    rw [standing_settled, if_pos rfl]
  rw [afterAll_append, afterAll_births_of_alive lives, afterAll_cons, ← joined,
    afterAll_joined distinct]

/-- The death of the second host makes the log forget the first host. -/
theorem append_death (distinct : first ≠ second) (two : 2 ≤ limit) (past : ¬time ≤ .latest) :
    (((empty lattice).appendAll (crowded lattice first second time limit) limit).append
        (death lattice second time) limit).1 =
      ⟨(parted lattice first second time).pruneRetired time,
        births lattice second time (limit / 2 - 1) ++ [death lattice second time],
        ((parted lattice first second time).after (death lattice second time)).pruneRetired
          time⟩ := by
  have halves : births lattice second time (limit - limit / 2 - 1) =
      births lattice second time (limit - limit / 2 - limit / 2) ++
        births lattice second time (limit / 2 - 1) := by
    rw [births_append_births]
    congr 1
    omega
  have regrouped : births lattice second time (limit / 2 - 1) ++ birth lattice first time ::
        death lattice first time :: births lattice second time (limit - limit / 2 - 1) ++
          [death lattice second time] =
      (births lattice second time (limit / 2 - 1) ++ birth lattice first time ::
        death lattice first time :: births lattice second time (limit - limit / 2 - limit / 2)) ++
        (births lattice second time (limit / 2 - 1) ++ [death lattice second time]) := by
    simp [halves]
  have forgets : (parted lattice first second time).prunedCount time ≠ 0 := by
    intro nothing
    have kept := congrArg (·.standing first) (prunedCount_eq_zero_iff.mp nothing)
    simp only [standing_pruneRetired, standing_parted _ _ _ _ distinct, ↓reduceIte,
      Standing.prune_dead past] at kept
    exact Standing.unknown_ne_dead time kept
  rw [appendAll_crowded distinct two]
  simp only [append_fst]
  rw [regrouped,
    compact_append _ _ (earliest?_births _ (death_occurredAt lattice second time)),
    afterAll_folded distinct, if_neg forgets]
  · simp
    omega
  · simp
    omega

/-- The log rebuilds the death of the second host, of which its state knows nothing. -/
theorem rebuild_ne_current (distinct : first ≠ second) (two : 2 ≤ limit) (past : ¬time ≤ .latest) :
    (((empty lattice).appendAll (crowded lattice first second time limit) limit).append
        (death lattice second time) limit).1.rebuild ≠
      (((empty lattice).appendAll (crowded lattice first second time limit) limit).append
        (death lattice second time) limit).1.current := by
  rw [append_death distinct two past, rebuild]
  intro same
  have remembered : (((parted lattice first second time).pruneRetired time).afterAll
      (births lattice second time (limit / 2 - 1) ++ [death lattice second time])).standing
        second = .dead time := by
    have lives : ((parted lattice first second time).pruneRetired time).standing second =
        .alive time := by
      rw [standing_pruneRetired, standing_parted _ _ _ _ distinct, if_neg distinct.symm,
        if_pos rfl]
      rfl
    rw [afterAll_append, afterAll_births_of_alive lives, afterAll_cons]
    refine (standing_after _ _ second).trans ?_
    rw [if_pos ⟨(lattice_parted ..).symm, rfl⟩, lives, Standing.alive_after_death]
  have forgotten : (((parted lattice first second time).after
      (death lattice second time)).pruneRetired time).standing second = .unknown := by
    rw [standing_pruneRetired, standing_after, if_pos ⟨(lattice_parted ..).symm, rfl⟩,
      standing_parted _ _ _ _ distinct, if_neg distinct.symm, if_pos rfl,
      Standing.alive_after_death, Standing.prune_dead past]
  rw [same, forgotten] at remembered
  exact Standing.unknown_ne_dead time remembered

end LatticeLog

end Reconciler
