import Reconciler.Proofs.Store.Chronicle

/-!
# Pruning

What a pruning takes away of a history and what it leaves. As many versions go as there are more
than to be kept, the oldest ones, but never the current one; nothing else changes, so that to prune
again does nothing.
-/

namespace Reconciler

namespace AppRecord

theorem dropOldest_zero (current : Nat) (versions : List StoredVersion) :
    dropOldest 0 current versions = (versions, current) := by
  cases versions <;> rfl

/-- If the current version is there and not all are to go, as many go as are to go. -/
theorem length_dropOldest {excess current : Nat} {versions : List StoredVersion}
    (inRange : current < versions.length) (bound : excess < versions.length) :
    (dropOldest excess current versions).1.length + excess = versions.length := by
  fun_induction dropOldest excess current versions with
  | case1 => exact absurd bound (Nat.not_lt_zero _)
  | case2 => rfl
  | case3 excess stored rest positive =>
      simp only [List.length_cons, List.length_drop] at bound ⊢
      omega
  | case4 stored rest excess current ih =>
      have shorter := ih (Nat.lt_of_succ_lt_succ inRange) (Nat.lt_of_succ_lt_succ bound)
      rw [List.length_cons, ← shorter]
      omega

variable {record : AppRecord}

/-- At least one version is to be kept. -/
theorem excess_lt (inRange : record.current < record.versions.length) (keep : Nat) :
    record.excess keep < record.versions.length := by
  rw [excess]
  omega

theorem length_prune (inRange : record.current < record.versions.length) (keep : Nat) :
    (record.prune keep).versions.length + record.excess keep = record.versions.length :=
  length_dropOldest inRange (excess_lt inRange keep)

theorem length_spare (inRange : record.current < record.versions.length) (keep : Nat) :
    (record.spare keep).length = record.excess keep := by
  have others := List.length_eraseIdx_of_lt inRange
  have bound := excess_lt inRange keep
  rw [spare, List.length_take, others]
  omega

/-- The current version keeps its place in the order, whatever place that is then. -/
theorem getElem?_prune (record : AppRecord) (keep : Nat) :
    (record.prune keep).versions[(record.prune keep).current]? =
      record.versions[record.current]? :=
  getElem?_dropOldest _ _ _

/-- A history that has been pruned has no versions that are too many. -/
theorem excess_prune (inRange : record.current < record.versions.length) (keep : Nat) :
    (record.prune keep).excess keep = 0 := by
  have shorter := length_prune inRange keep
  rw [excess] at shorter ⊢
  omega

theorem prune_of_excess_eq_zero {keep : Nat} (none : record.excess keep = 0) :
    record.prune keep = record := by
  simp only [prune, none, dropOldest_zero]

end AppRecord

namespace Store

theorem withRecord_withRecord (store : Store) (app : AppName) (first last : AppRecord) :
    (store.withRecord app first).withRecord app last = store.withRecord app last := by
  refine congrArg Store.mk (SortedMap.ext_find? fun other => ?_)
  simp only [withRecord, SortedMap.find?_insert]
  split <;> rfl

theorem prune_of_find? {store : Store} {app : AppName} {record : AppRecord}
    (found : store.apps.find? app = some record) (keep : Nat) :
    store.prune app keep = .ok (store.withRecord app (record.prune keep),
      record.versions.length - (record.prune keep).versions.length) := by
  rw [prune, record?_eq_ok_iff.mpr found]
  rfl

/-- To prune again takes nothing away and changes nothing. -/
theorem prune_withRecord_prune (store : Store) (app : AppName) {record : AppRecord}
    (inRange : record.current < record.versions.length) (keep : Nat) :
    (store.withRecord app (record.prune keep)).prune app keep =
      .ok (store.withRecord app (record.prune keep), 0) := by
  have found : (store.withRecord app (record.prune keep)).apps.find? app =
      some (record.prune keep) := by
    rw [find?_withRecord, if_pos rfl]
  have still := AppRecord.prune_of_excess_eq_zero (AppRecord.excess_prune inRange keep)
  rw [prune_of_find? found, still, withRecord_withRecord, Nat.sub_self]

/--
Of the versions of an application in any state that a store reaches, a pruning takes away as many as
there are more than to be kept, at least one of which is, and answers with their number. They are
the oldest of those that are not current. The others stay as they are, in their order; the current
version is the same as before, and so is where the application is deployed; other applications are
not touched. To prune again takes nothing away.
-/
theorem prunes_oldest (operations : List StoreOperation) (keep : Nat) {app : AppName}
    {record : AppRecord} (stored : (empty.afterAll operations).apps.find? app = some record) :
    let store := empty.afterAll operations
    let excess := record.versions.length - max keep 1
    let oldest := (record.versions.eraseIdx record.current).take excess
    ∃ next pruned, store.prune app keep = .ok (next, excess) ∧
      next.apps.find? app = some pruned ∧
      (∀ other, other ≠ app → next.apps.find? other = store.apps.find? other) ∧
      pruned.versions = record.versions.filter (fun version => version ∉ oldest) ∧
      oldest.length = excess ∧ pruned.versions.length + excess = record.versions.length ∧
      pruned.versions[pruned.current]? = record.versions[record.current]? ∧
      (∃ manifest, store.getCurrent app = .ok manifest ∧ next.getCurrent app = .ok manifest) ∧
      pruned.deployment = record.deployment ∧ next.prune app keep = .ok (next, 0) := by
  intro store excess oldest
  have wellFormed := wellFormed_empty.afterAll operations app record stored
  have inRange := wellFormed.inRange
  have shorter := AppRecord.length_prune inRange keep
  have found : (store.withRecord app (record.prune keep)).apps.find? app =
      some (record.prune keep) := by
    rw [find?_withRecord, if_pos rfl]
  rcases wellFormed.exists_current? with ⟨version, -, isCurrent⟩
  have isStill := (record.current?_prune keep).trans isCurrent
  refine ⟨store.withRecord app (record.prune keep), record.prune keep, ?_, found, ?_,
    AppRecord.versions_prune wellFormed.distinct keep, AppRecord.length_spare inRange keep,
    shorter, record.getElem?_prune keep, ⟨version.manifest, ?_, ?_⟩, rfl,
    prune_withRecord_prune store app inRange keep⟩
  · rw [prune_of_find? stored, ← shorter, Nat.add_sub_cancel_left]
    rfl
  · intro other different
    rw [find?_withRecord, if_neg different]
  · exact getCurrent_of_current? (Option.bind_eq_some_iff.mpr ⟨record, stored, isCurrent⟩)
  · exact getCurrent_of_current? (Option.bind_eq_some_iff.mpr ⟨_, found, isStill⟩)

/-- The second of five versions is current, and two are to be kept. -/
theorem prunes_oldest_of_five :
    let manifest : String → Manifest := .new ⟨"shop"⟩
    let operations : List StoreOperation :=
      [.put ⟨1, 0⟩ ⟨"shop"⟩ (manifest "v1"), .put ⟨2, 0⟩ ⟨"shop"⟩ (manifest "v2"),
        .put ⟨3, 0⟩ ⟨"shop"⟩ (manifest "v3"), .put ⟨4, 0⟩ ⟨"shop"⟩ (manifest "v4"),
        .put ⟨5, 0⟩ ⟨"shop"⟩ (manifest "v5"), .rollback ⟨"shop"⟩ "v2"]
    let store := empty.afterAll operations
    ∃ record next pruned, store.apps.find? ⟨"shop"⟩ = some record ∧
      record.labels = ["v1", "v2", "v3", "v4", "v5"] ∧
      store.prune ⟨"shop"⟩ 2 = .ok (next, 3) ∧ next.apps.find? ⟨"shop"⟩ = some pruned ∧
      pruned.labels = ["v2", "v5"] ∧ next.getCurrent ⟨"shop"⟩ = .ok (manifest "v2") ∧
      next.prune ⟨"shop"⟩ 2 = .ok (next, 0) := by
  intro manifest operations store
  have present : (store.apps.find? ⟨"shop"⟩).map (fun record => (record.versions, record.current)) =
      some ([⟨manifest "v1", ⟨1, 0⟩⟩, ⟨manifest "v2", ⟨2, 0⟩⟩, ⟨manifest "v3", ⟨3, 0⟩⟩,
        ⟨manifest "v4", ⟨4, 0⟩⟩, ⟨manifest "v5", ⟨5, 0⟩⟩], 1) := by
    decide +kernel
  rcases Option.map_eq_some_iff.mp present with ⟨record, found, here⟩
  rw [Prod.mk.injEq] at here
  rcases prunes_oldest operations 2 found with
    ⟨next, pruned, accepted, foundNext, -, left, -, -, -, ⟨current, isCurrent, isStill⟩, -, again⟩
  have answer : store.getCurrent ⟨"shop"⟩ = .ok (manifest "v2") := by decide +kernel
  obtain rfl := Except.ok.inj (answer.symm.trans isCurrent)
  rw [here.1, here.2] at left
  refine ⟨record, next, pruned, found, ?_, ?_, foundNext, ?_, isStill, again⟩
  · rw [AppRecord.labels, here.1]
    rfl
  · rw [accepted, here.1]
    rfl
  · rw [AppRecord.labels, left]
    decide +kernel

end Store

end Reconciler
