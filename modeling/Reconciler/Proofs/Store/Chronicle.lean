import Reconciler.Proofs.Store.Operations

/-!
# What a store remembers

A store answers as its chronicle tells: a version is what was put under its label, the current
version is what was put or gone back to last, and the versions are listed in the order in which they
were put.
-/

namespace Reconciler

theorem AppRecord.map_infos (record : AppRecord) :
    (record.infos.map fun info => (info.version, info.createdAt)) =
      record.versions.map fun stored => (stored.label, stored.createdAt) := by
  have listed := List.zipIdx_map_fst 0 record.versions
  conv => rhs; rw [← listed]
  rw [infos, List.map_map, List.map_map]
  rfl

namespace Store

/-- Whether operations that a store is asked for do not touch something. -/
def avoids (touches : Store → StoreOperation → Bool) (store : Store) : List StoreOperation → Bool
  | [] => true
  | operation :: more =>
    !touches store operation && (store.after operation).avoids touches more

/-- Whether operations leave the version with a label in the history of an application. -/
def retains (store : Store) (app : AppName) (label : String) (operations : List StoreOperation) :
    Bool :=
  store.avoids (fun now operation => now.drops app label operation) operations

/-- Whether operations leave the current version of an application alone. -/
def settled (store : Store) (app : AppName) (operations : List StoreOperation) : Bool :=
  store.avoids (fun now operation => operation.deletes app || (now.selected? app operation).isSome)
    operations

/-- The versions that operations add to the history of an application and leave there, in order. -/
def chronicle (store : Store) (app : AppName) : List StoreOperation → List StoredVersion
  | [] => []
  | operation :: more =>
    let next := store.after operation
    (store.added? app operation).toList.filter (fun stored => next.retains app stored.label more) ++
      next.chronicle app more

/-- The versions of an application, the oldest first. -/
def versions (store : Store) (app : AppName) : List StoredVersion :=
  (store.apps.find? app).elim [] AppRecord.versions

/-- The current version of an application. -/
def current? (store : Store) (app : AppName) : Option Manifest :=
  (store.apps.find? app).bind AppRecord.current?

variable {store next : Store} {app : AppName}

/-- An operation takes the versions away that it drops, and adds the new one at the end. -/
theorem WellFormed.versions_after (wellFormed : store.WellFormed) (app : AppName)
    (operation : StoreOperation) :
    (store.after operation).versions app =
      (store.versions app).filter (fun stored => !store.drops app stored.label operation) ++
        (store.added? app operation).toList := by
  have turn := store.turn_after app operation
  have sound := wellFormed.isSound_getD app
  rw [versions, versions]
  generalize (store.after operation).apps.find? app = history at turn
  generalize store.apps.find? app = former at turn sound
  cases turn with
  | stays adds _ _ drops => simp [adds, drops]
  | deploys record deployment adds _ _ drops => simp [adds, drops]
  | grows manifest now _ _ _ _ adds _ _ drops =>
      cases former <;> simp [adds, drops, AppRecord.push, AppRecord.empty]
  | repoints record _ adds _ _ drops => simp [adds, drops]
  | shrinks record keep adds _ _ drops =>
      have distinct : record.labels.Nodup := sound.distinct
      rw [adds, Option.toList_none, List.append_nil, Option.elim_some, Option.elim_some,
        AppRecord.versions_prune distinct]
      refine List.filter_congr fun stored member => ?_
      -- Labels tell the versions apart, so that a version goes exactly if its label is dropped.
      have spared : ((record.spare keep).any fun other => other.label = stored.label) =
          decide (stored ∈ record.spare keep) := by
        rw [Bool.eq_iff_iff, List.any_eq_true, decide_eq_true_iff]
        constructor
        · rintro ⟨other, isSpare, labelled⟩
          have isVersion := List.eraseIdx_subset (List.mem_of_mem_take isSpare)
          rwa [← List.inj_on_of_nodup_map distinct isVersion member (of_decide_eq_true labelled)]
        · intro isSpare
          exact ⟨stored, isSpare, decide_eq_true rfl⟩
      rw [drops, spared, decide_not]
  | ends adds _ _ drops => simp [adds, drops]

/-- The versions after operations are those of before that are left, and the new ones that are. -/
theorem WellFormed.versions_afterAll (wellFormed : store.WellFormed) (app : AppName)
    (operations : List StoreOperation) :
    (store.afterAll operations).versions app =
      (store.versions app).filter (fun stored => store.retains app stored.label operations) ++
        store.chronicle app operations := by
  induction operations generalizing store with
  | nil =>
      rw [chronicle, List.append_nil]
      exact (List.filter_eq_self.mpr fun _ _ => rfl).symm
  | cons operation more ih =>
      have rest := ih (wellFormed.after operation)
      rw [wellFormed.versions_after, List.filter_append, List.filter_filter,
        List.append_assoc] at rest
      refine rest.trans (congrArg₂ _ (List.filter_congr fun stored _ => ?_) rfl)
      rw [Bool.and_comm]
      rfl

/-- The current version stays unless another one becomes current, or the application goes. -/
theorem current?_after (store : Store) (app : AppName) (operation : StoreOperation) :
    (store.after operation).current? app =
      (store.selected? app operation).or
        (if operation.deletes app then none else store.current? app) := by
  have turn := store.turn_after app operation
  rw [current?, current?]
  generalize (store.after operation).apps.find? app = history at turn
  generalize store.apps.find? app = former at turn
  cases turn with
  | stays _ selects deletes => simp [selects, deletes]
  | deploys record deployment _ selects deletes =>
      simp only [selects, deletes, Option.none_or, Bool.false_eq_true, if_false]
      rfl
  | grows manifest now _ _ _ _ _ selects =>
      rw [selects, Option.some_or, Option.bind_some, AppRecord.current?_push]
  | repoints record here _ selects =>
      rw [selects, Option.some_or, Option.bind_some, AppRecord.current?, here, Option.map_some]
  | shrinks record keep _ selects deletes =>
      simp [selects, deletes, AppRecord.current?_prune]
  | ends _ selects deletes => simp [selects, deletes]

theorem current?_afterAll_of_settled {operations : List StoreOperation}
    (settled : store.settled app operations = true) :
    (store.afterAll operations).current? app = store.current? app := by
  induction operations generalizing store with
  | nil => rfl
  | cons operation more ih =>
      rw [Store.settled, avoids, Bool.and_eq_true, Bool.not_eq_true', Bool.or_eq_false_iff,
        Option.isSome_eq_false_iff, Option.isNone_iff_eq_none] at settled
      rcases settled with ⟨⟨deletes, selects⟩, later⟩
      have step := store.current?_after app operation
      rw [selects, deletes, Option.none_or, if_neg Bool.false_ne_true] at step
      exact (ih later).trans step

/-! ### Answers -/

theorem getCurrent_of_current? {manifest : Manifest}
    (isCurrent : store.current? app = some manifest) : store.getCurrent app = .ok manifest := by
  rcases Option.bind_eq_some_iff.mp isCurrent with ⟨record, found, here⟩
  simp [getCurrent, record?_eq_ok_iff.mpr found, here, bind, Except.bind, pure, Except.pure]

theorem WellFormed.getVersion_of_mem (wellFormed : store.WellFormed) {stored : StoredVersion}
    (member : stored ∈ store.versions app) :
    store.getVersion app stored.label = .ok stored.manifest := by
  rw [versions] at member
  cases found : store.apps.find? app with
  | none =>
      rw [found] at member
      cases member
  | some record =>
      rw [found] at member
      have here := AppRecord.version?_of_mem (wellFormed app record found).distinct member
      simp [getVersion, record?_eq_ok_iff.mpr found, here, bind, Except.bind, pure, Except.pure]

theorem WellFormed.listVersions_cases (wellFormed : store.WellFormed) (app : AppName) :
    (store.versions app = [] ∧ store.listVersions app = .error (.notFound app)) ∨
      (store.versions app ≠ [] ∧ ∃ infos, store.listVersions app = .ok infos ∧
        (infos.map fun info => (info.version, info.createdAt)) =
          (store.versions app).map fun stored => (stored.label, stored.createdAt)) := by
  rw [listVersions, record?, versions]
  cases found : store.apps.find? app with
  | none => exact .inl ⟨rfl, rfl⟩
  | some record =>
      have inRange := (wellFormed app record found).inRange
      exact .inr ⟨List.ne_nil_of_length_pos (Nat.zero_lt_of_lt inRange), record.infos, rfl,
        record.map_infos⟩

/-- To go back to a version answers with the manifest that is under its label. -/
theorem getVersion_of_rollback {version : String} {manifest : Manifest}
    (accepted : store.rollback app version = .ok (next, manifest)) :
    store.getVersion app version = .ok manifest := by
  rw [rollback] at accepted
  cases found : store.record? app with
  | error problem => simp [found, bind, Except.bind] at accepted
  | ok record =>
      simp only [found, bind, Except.bind] at accepted
      split at accepted
      · rename_i place answer isPlace isVersion
        cases accepted
        simp [getVersion, found, isVersion, bind, Except.bind, pure, Except.pure]
      · cases accepted

/-- What an operation adds is found under its label as long as operations leave it there. -/
theorem WellFormed.getVersion_of_added? (wellFormed : store.WellFormed)
    {operation : StoreOperation} {stored : StoredVersion}
    (adds : store.added? app operation = some stored) {more : List StoreOperation}
    (retained : (store.after operation).retains app stored.label more = true) :
    ((store.after operation).afterAll more).getVersion app stored.label = .ok stored.manifest := by
  have nextWellFormed := wellFormed.after operation
  apply (nextWellFormed.afterAll more).getVersion_of_mem
  rw [nextWellFormed.versions_afterAll, wellFormed.versions_after, adds, Option.toList_some]
  refine List.mem_append_left _ (List.mem_filter.mpr ⟨?_, retained⟩)
  exact List.mem_append_right _ (List.mem_singleton_self _)

/-- What an operation makes current is current as long as operations leave it so. -/
theorem getCurrent_of_selected? {operation : StoreOperation} {manifest : Manifest}
    (selects : store.selected? app operation = some manifest) {more : List StoreOperation}
    (settled : (store.after operation).settled app more = true) :
    ((store.after operation).afterAll more).getCurrent app = .ok manifest := by
  apply getCurrent_of_current?
  rw [current?_afterAll_of_settled settled, current?_after, selects, Option.some_or]

/--
A store keeps histories faithfully. What is put is found under the label that the store answered, as
long as the application is not deleted and the version not pruned. The current version is what was
put or gone back to last, whatever is pruned in between. The versions that are left are listed in
the order in which they were put.
-/
theorem remembers (before more : List StoreOperation) (app : AppName) :
    let store := empty.afterAll before
    let listed := empty.chronicle app before
    (∀ now manifest next label, store.put now app manifest = .ok (next, label) →
      (next.retains app label more = true →
        (next.afterAll more).getVersion app label = .ok { manifest with version := label }) ∧
      (next.settled app more = true →
        (next.afterAll more).getCurrent app = .ok { manifest with version := label })) ∧
    (∀ version manifest next, store.rollback app version = .ok (next, manifest) →
      store.getVersion app version = .ok manifest ∧
      (next.settled app more = true → (next.afterAll more).getCurrent app = .ok manifest)) ∧
    ((listed = [] ∧ store.listVersions app = .error (.notFound app)) ∨
      (listed ≠ [] ∧ ∃ infos, store.listVersions app = .ok infos ∧
        (infos.map fun info => (info.version, info.createdAt)) =
          listed.map fun stored => (stored.label, stored.createdAt))) := by
  intro store listed
  have wellFormed : store.WellFormed := wellFormed_empty.afterAll before
  refine ⟨?_, ?_, ?_⟩
  · intro now manifest next label accepted
    have isNext : store.after (.put now app manifest) = next := by rw [after, accepted]
    have adds : store.added? app (.put now app manifest) =
        some ⟨{ manifest with version := label }, now⟩ := by simp [added?, accepted]
    have selects : store.selected? app (.put now app manifest) =
        some { manifest with version := label } := by simp [selected?, adds]
    subst isNext
    exact ⟨wellFormed.getVersion_of_added? adds, getCurrent_of_selected? selects⟩
  · intro version manifest next accepted
    have isNext : store.after (.rollback app version) = next := by rw [after, accepted]
    have selects : store.selected? app (.rollback app version) = some manifest := by
      simp [selected?, accepted]
    subst isNext
    exact ⟨getVersion_of_rollback accepted, getCurrent_of_selected? selects⟩
  · have versions : store.versions app = listed := wellFormed_empty.versions_afterAll app before
    have answer := wellFormed.listVersions_cases app
    rwa [versions] at answer

/-- A version put without a label, gone back to before a pruning, and what is left afterwards. -/
theorem remembers_of_prune :
    let manifest : String → Manifest := .new ⟨"shop"⟩
    let before : List StoreOperation :=
      [.put ⟨1, 0⟩ ⟨"shop"⟩ (manifest "v1"), .put ⟨2, 0⟩ ⟨"shop"⟩ (manifest "v2")]
    let more : List StoreOperation :=
      [.put ⟨4, 0⟩ ⟨"shop"⟩ (manifest "v9"), .rollback ⟨"shop"⟩ "v2", .prune ⟨"shop"⟩ 3,
        .put ⟨5, 0⟩ ⟨"shop"⟩ (manifest "v2")]
    let next := (empty.afterAll before).after (.put ⟨3, 0⟩ ⟨"shop"⟩ (manifest ""))
    let store := next.afterAll more
    store.getVersion ⟨"shop"⟩ "v3" = .ok (manifest "v3") ∧
      store.getVersion ⟨"shop"⟩ "v1" = .error (.versionNotFound ⟨"shop"⟩ "v1") ∧
      store.getCurrent ⟨"shop"⟩ = .ok (manifest "v2") ∧
      (empty.chronicle ⟨"shop"⟩ (before ++ .put ⟨3, 0⟩ ⟨"shop"⟩ (manifest "") :: more)).map
        StoredVersion.label = ["v2", "v3", "v9"] := by
  intro manifest before more next store
  have put := (remembers before more ⟨"shop"⟩).1 ⟨3, 0⟩ (manifest "") next "v3" (by decide +kernel)
  have rollback := (remembers (before ++ [.put ⟨3, 0⟩ ⟨"shop"⟩ (manifest ""),
    .put ⟨4, 0⟩ ⟨"shop"⟩ (manifest "v9")]) (more.drop 2) ⟨"shop"⟩).2.1 "v2" (manifest "v2")
    (next.afterAll (more.take 2)) (by decide +kernel)
  exact ⟨put.1 (by decide +kernel), by decide +kernel, rollback.2 (by decide +kernel),
    by decide +kernel⟩

end Store

end Reconciler
