import Reconciler.Proofs.SortedMap
import Reconciler.Proofs.Store.Histories
import Reconciler.Store.Store

/-!
# Runs of a store

Whatever a store is asked for, the history of an application takes one of a few turns: it stays, it
gets one more version, another of its versions becomes current, some of its old versions go, or it
goes altogether. Each turn leaves a well-formed history well formed.
-/

namespace Reconciler

/-- What changes a store, if it succeeds. -/
inductive StoreOperation where
  | put (now : Timestamp) (app : AppName) (manifest : Manifest)
  | rollback (app : AppName) (version : String)
  | delete (app : AppName)
  | prune (app : AppName) (keep : Nat)
  | setDeployment (app : AppName) (deployment : Option DeploymentRecord)
deriving DecidableEq

/-- The application that an operation is about. -/
def StoreOperation.app : StoreOperation → AppName
  | .put _ app _ => app
  | .rollback app _ => app
  | .delete app => app
  | .prune app _ => app
  | .setDeployment app _ => app

/-- Whether an operation deletes an application. -/
def StoreOperation.deletes (operation : StoreOperation) (app : AppName) : Bool :=
  match operation with
  | .delete other => other = app
  | _ => false

namespace Store

/-- The store after an operation; one that fails leaves it as it was. -/
def after (store : Store) : StoreOperation → Store
  | .put now app manifest =>
    match store.put now app manifest with
    | .ok (next, _) => next
    | .error _ => store
  | .rollback app version =>
    match store.rollback app version with
    | .ok (next, _) => next
    | .error _ => store
  | .delete app => (store.delete app).1
  | .prune app keep =>
    match store.prune app keep with
    | .ok (next, _) => next
    | .error _ => store
  | .setDeployment app deployment =>
    match store.setDeployment app deployment with
    | .ok next => next
    | .error _ => store

/-- The store after operations, one after the other. -/
def afterAll (store : Store) (operations : List StoreOperation) : Store :=
  operations.foldl after store

/-- The version that an operation adds to the history of an application. -/
def added? (store : Store) (app : AppName) : StoreOperation → Option StoredVersion
  | .put now other manifest =>
    match store.put now other manifest with
    | .ok (_, label) =>
      if other = app then some ⟨{ manifest with version := label }, now⟩ else none
    | .error _ => none
  | _ => none

/-- The manifest that an operation makes the current one of an application. -/
def selected? (store : Store) (app : AppName) : StoreOperation → Option Manifest
  | .rollback other version =>
    match store.rollback other version with
    | .ok (_, manifest) => if other = app then some manifest else none
    | .error _ => none
  | operation => (store.added? app operation).map StoredVersion.manifest

/-- Whether an operation takes the version with a label away from the history of an application. -/
def drops (store : Store) (app : AppName) (label : String) : StoreOperation → Bool
  | .delete other => other = app
  | .prune other keep =>
    other = app && (store.apps.find? app).any fun record =>
      (record.spare keep).any fun stored => stored.label = label
  | _ => false

/-- What an operation makes of the history of an application. -/
inductive Turn (store : Store) (app : AppName) (operation : StoreOperation) :
    Option AppRecord → Option AppRecord → Prop where
  | stays {history : Option AppRecord} (adds : store.added? app operation = none)
      (selects : store.selected? app operation = none) (deletes : operation.deletes app = false)
      (drops : ∀ label, store.drops app label operation = false) :
      Turn store app operation history history
  | deploys (record : AppRecord) (deployment : Option DeploymentRecord)
      (adds : store.added? app operation = none) (selects : store.selected? app operation = none)
      (deletes : operation.deletes app = false)
      (drops : ∀ label, store.drops app label operation = false) :
      Turn store app operation (some record) (some { record with deployment := deployment })
  | grows {history : Option AppRecord} (manifest : Manifest) (now : Timestamp)
      (labelled : manifest.version ≠ "") (isNew : manifest.version ∉ (history.getD .empty).labels)
      (valid : manifest.isValid = true) (named : manifest.name = app)
      (adds : store.added? app operation = some ⟨manifest, now⟩)
      (selects : store.selected? app operation = some manifest)
      (deletes : operation.deletes app = false)
      (drops : ∀ label, store.drops app label operation = false) :
      Turn store app operation history (some ((history.getD .empty).push manifest now))
  | repoints (record : AppRecord) {place : Nat} {stored : StoredVersion}
      (found : record.versions[place]? = some stored) (adds : store.added? app operation = none)
      (selects : store.selected? app operation = some stored.manifest)
      (deletes : operation.deletes app = false)
      (drops : ∀ label, store.drops app label operation = false) :
      Turn store app operation (some record) (some { record with current := place })
  | shrinks (record : AppRecord) (keep : Nat) (adds : store.added? app operation = none)
      (selects : store.selected? app operation = none) (deletes : operation.deletes app = false)
      (drops : ∀ label, store.drops app label operation =
        (record.spare keep).any fun stored => stored.label = label) :
      Turn store app operation (some record) (some (record.prune keep))
  | ends {history : Option AppRecord} (adds : store.added? app operation = none)
      (selects : store.selected? app operation = none) (deletes : operation.deletes app = true)
      (drops : ∀ label, store.drops app label operation = true) :
      Turn store app operation history none

variable {store next : Store} {app : AppName}

theorem record?_eq_ok_iff {record : AppRecord} :
    store.record? app = .ok record ↔ store.apps.find? app = some record := by
  rw [record?]
  cases store.apps.find? app with
  | none => simp
  | some found => simp

theorem find?_withRecord (store : Store) (app other : AppName) (record : AppRecord) :
    (store.withRecord app record).apps.find? other =
      if other = app then some record else store.apps.find? other := by
  rw [withRecord, SortedMap.find?_insert]

/-- A version that is put has a new label, and the manifest is valid and for the application. -/
theorem put_eq_ok {now : Timestamp} {manifest : Manifest} {label : String}
    (accepted : store.put now app manifest = .ok (next, label)) :
    manifest.name = app ∧ manifest.problem? = none ∧ label ≠ "" ∧
      label ∉ ((store.apps.find? app).getD .empty).labels ∧
      next = store.withRecord app (((store.apps.find? app).getD .empty).push
        { manifest with version := label } now) := by
  rw [put] at accepted
  split at accepted
  · cases accepted
  · rename_i named
    refine ⟨Decidable.not_not.mp named, ?_⟩
    split at accepted
    · cases accepted
    · rename_i valid
      refine ⟨valid, ?_⟩
      simp only at accepted
      split at accepted
      · cases accepted
        exact ⟨AppRecord.nextLabel_ne_empty _, AppRecord.nextLabel_notMem _, rfl⟩
      · rename_i labelled
        split at accepted
        · cases accepted
        · rename_i isNew
          cases accepted
          exact ⟨labelled, fun taken => isNew (AppRecord.find?_isSome_iff.mpr taken), rfl⟩

theorem rollback_eq_ok {version : String} {manifest : Manifest}
    (accepted : store.rollback app version = .ok (next, manifest)) :
    ∃ record place stored, store.apps.find? app = some record ∧
      record.versions[place]? = some stored ∧ stored.manifest = manifest ∧
      next = store.withRecord app { record with current := place } := by
  rw [rollback] at accepted
  cases found : store.record? app with
  | error problem => simp [found, bind, Except.bind] at accepted
  | ok record =>
      simp only [found, bind, Except.bind] at accepted
      split at accepted
      · rename_i place answer isPlace isVersion
        cases accepted
        rcases AppRecord.exists_of_find? isPlace with ⟨stored, here, -, same⟩
        rw [isVersion, Option.some.injEq] at same
        exact ⟨record, place, stored, record?_eq_ok_iff.mp found, here, same.symm, rfl⟩
      · cases accepted

theorem prune_eq_ok {keep removed : Nat}
    (accepted : store.prune app keep = .ok (next, removed)) :
    ∃ record, store.apps.find? app = some record ∧
      next = store.withRecord app (record.prune keep) := by
  rw [prune] at accepted
  cases found : store.record? app with
  | error problem => simp [found, bind, Except.bind] at accepted
  | ok record =>
      simp only [found, bind, Except.bind, pure, Except.pure] at accepted
      cases accepted
      exact ⟨record, record?_eq_ok_iff.mp found, rfl⟩

theorem prune_eq_error {keep : Nat} {problem : StoreError}
    (refused : store.prune app keep = .error problem) : store.apps.find? app = none := by
  rw [prune, record?] at refused
  split at refused
  · cases refused
  · assumption

theorem setDeployment_eq_ok_iff {deployment : Option DeploymentRecord} :
    store.setDeployment app deployment = .ok next ↔
      ∃ record, store.apps.find? app = some record ∧
        next = store.withRecord app { record with deployment := deployment } := by
  rw [setDeployment]
  cases found : store.record? app with
  | error problem =>
      have absent : ∀ record, store.apps.find? app ≠ some record := by
        intro record here
        cases found.symm.trans (record?_eq_ok_iff.mpr here)
      simp [bind, Except.bind, absent]
  | ok record =>
      have here := record?_eq_ok_iff.mp found
      simp [bind, Except.bind, pure, Except.pure, here, eq_comm]

theorem find?_after_of_ne (store : Store) {operation : StoreOperation}
    (elsewhere : app ≠ operation.app) :
    (store.after operation).apps.find? app = store.apps.find? app := by
  cases operation with
  | put now other manifest =>
      cases answer : store.put now other manifest with
      | error problem => rw [after, answer]
      | ok result =>
          rcases put_eq_ok answer with ⟨_, _, _, _, same⟩
          simp only [after, answer, same, find?_withRecord]
          exact if_neg elsewhere
  | rollback other version =>
      cases answer : store.rollback other version with
      | error problem => rw [after, answer]
      | ok result =>
          rcases rollback_eq_ok answer with ⟨_, _, _, _, _, _, same⟩
          simp only [after, answer, same, find?_withRecord]
          exact if_neg elsewhere
  | delete other =>
      simp only [after, delete, SortedMap.find?_erase]
      exact if_neg elsewhere
  | prune other keep =>
      cases answer : store.prune other keep with
      | error problem => rw [after, answer]
      | ok result =>
          rcases prune_eq_ok answer with ⟨_, _, same⟩
          simp only [after, answer, same, find?_withRecord]
          exact if_neg elsewhere
  | setDeployment other deployment =>
      cases answer : store.setDeployment other deployment with
      | error problem => rw [after, answer]
      | ok next =>
          rcases setDeployment_eq_ok_iff.mp answer with ⟨_, _, rfl⟩
          simp only [after, answer, find?_withRecord]
          exact if_neg elsewhere

/-- An operation that is about another application leaves the history as it is. -/
theorem turn_after_of_ne (store : Store) {operation : StoreOperation}
    (elsewhere : app ≠ operation.app) :
    store.Turn app operation (store.apps.find? app) ((store.after operation).apps.find? app) := by
  have different : operation.app ≠ app := elsewhere.symm
  rw [store.find?_after_of_ne elsewhere]
  cases operation with
  | put now other manifest =>
      have adds : store.added? app (.put now other manifest) = none := by
        rw [added?]
        split
        · exact if_neg different
        · rfl
      exact .stays adds (congrArg (Option.map StoredVersion.manifest) adds) rfl fun _ => rfl
  | rollback other version =>
      have selects : store.selected? app (.rollback other version) = none := by
        rw [selected?]
        split
        · exact if_neg different
        · rfl
      exact .stays rfl selects rfl fun _ => rfl
  | delete other =>
      exact .stays rfl rfl (decide_eq_false different) fun _ => decide_eq_false different
  | prune other keep =>
      have another : decide (other = app) = false := decide_eq_false different
      exact .stays rfl rfl rfl fun label => by rw [drops, another, Bool.false_and]
  | setDeployment other deployment => exact .stays rfl rfl rfl fun _ => rfl

/-- The history of the application that an operation is about makes one of the turns. -/
theorem turn_after_app (store : Store) (operation : StoreOperation) :
    store.Turn operation.app operation (store.apps.find? operation.app)
      ((store.after operation).apps.find? operation.app) := by
  cases operation with
  | put now app manifest =>
      cases answer : store.put now app manifest with
      | error problem =>
          rw [after, answer]
          exact .stays (by simp [added?, answer]) (by simp [selected?, added?, answer]) rfl
            fun _ => rfl
      | ok result =>
          rcases result with ⟨next, label⟩
          rcases put_eq_ok answer with ⟨named, valid, labelled, isNew, rfl⟩
          have adds : store.added? app (.put now app manifest) =
              some ⟨{ manifest with version := label }, now⟩ := by simp [added?, answer]
          simp only [StoreOperation.app, after, answer, find?_withRecord, if_true]
          exact .grows _ now labelled isNew (Option.isNone_iff_eq_none.mpr valid) named adds
            (congrArg (Option.map StoredVersion.manifest) adds) rfl fun _ => rfl
  | rollback app version =>
      cases answer : store.rollback app version with
      | error problem =>
          rw [after, answer]
          exact .stays rfl (by simp [selected?, answer]) rfl fun _ => rfl
      | ok result =>
          rcases result with ⟨next, manifest⟩
          rcases rollback_eq_ok answer with ⟨record, place, stored, found, here, same, rfl⟩
          simp only [StoreOperation.app, after, answer, find?_withRecord, if_true, found]
          exact .repoints record here rfl (by simp [selected?, answer, same]) rfl fun _ => rfl
  | delete app =>
      simp only [StoreOperation.app, after, delete, SortedMap.find?_erase, if_true]
      exact .ends rfl rfl (decide_eq_true rfl) fun _ => decide_eq_true rfl
  | prune app keep =>
      cases answer : store.prune app keep with
      | error problem =>
          rw [after, answer]
          exact .stays rfl rfl rfl fun label => by
            simp [drops, StoreOperation.app, prune_eq_error answer]
      | ok result =>
          rcases result with ⟨next, removed⟩
          rcases prune_eq_ok answer with ⟨record, found, rfl⟩
          simp only [StoreOperation.app, after, answer, find?_withRecord, if_true, found]
          exact .shrinks record keep rfl rfl rfl fun label => by simp [drops, found]
  | setDeployment app deployment =>
      cases answer : store.setDeployment app deployment with
      | error problem =>
          rw [after, answer]
          exact .stays rfl rfl rfl fun _ => rfl
      | ok next =>
          rcases setDeployment_eq_ok_iff.mp answer with ⟨record, found, rfl⟩
          simp only [StoreOperation.app, after, answer, find?_withRecord, if_true, found]
          exact .deploys record deployment rfl rfl rfl fun _ => rfl

/-- Every operation makes one of the turns. -/
theorem turn_after (store : Store) (app : AppName) (operation : StoreOperation) :
    store.Turn app operation (store.apps.find? app) ((store.after operation).apps.find? app) := by
  by_cases here : app = operation.app
  · rw [here]
    exact store.turn_after_app operation
  · exact store.turn_after_of_ne here

/-- A store all of whose histories are well formed. -/
def WellFormed (store : Store) : Prop :=
  ∀ app record, store.apps.find? app = some record → record.WellFormed app

theorem wellFormed_empty : empty.WellFormed := by
  intro app record found
  cases found

theorem WellFormed.isSound_getD (wellFormed : store.WellFormed) (app : AppName) :
    ((store.apps.find? app).getD .empty).IsSound app := by
  cases found : store.apps.find? app with
  | none => exact AppRecord.isSound_empty app
  | some record => exact (wellFormed app record found).toIsSound

theorem WellFormed.after (wellFormed : store.WellFormed) (operation : StoreOperation) :
    (store.after operation).WellFormed := by
  intro app next found
  have turn := store.turn_after app operation
  have sound := wellFormed.isSound_getD app
  rw [found] at turn
  generalize former : store.apps.find? app = history at turn sound
  cases turn with
  | stays => exact wellFormed app next former
  | deploys record deployment =>
      have before := wellFormed app record former
      exact ⟨before.of_versions_eq rfl, before.inRange⟩
  | grows manifest now labelled isNew valid named =>
      exact sound.push labelled isNew valid named now
  | repoints record here =>
      have before := wellFormed app record former
      exact ⟨before.of_versions_eq rfl, (List.getElem?_eq_some_iff.mp here).1⟩
  | shrinks record keep => exact (wellFormed app record former).prune keep

theorem WellFormed.afterAll (wellFormed : store.WellFormed) (operations : List StoreOperation) :
    (store.afterAll operations).WellFormed := by
  induction operations generalizing store with
  | nil => exact wellFormed
  | cons operation more ih => exact ih (wellFormed.after operation)

/--
In every state that a store reaches, whatever of what it is asked for succeeds or fails, a stored
application has a version. The current one is in its place, so that the store lists exactly one
version as current, and finds it. Labels are there and tell versions apart, and every version is a
valid manifest that carries the name of the application.
-/
theorem histories_afterAll (operations : List StoreOperation) {app : AppName} {record : AppRecord}
    (stored : (empty.afterAll operations).apps.find? app = some record) :
    record.versions ≠ [] ∧ record.current < record.versions.length ∧
      (∃ infos marked manifest, (empty.afterAll operations).listVersions app = .ok infos ∧
        infos.filter VersionInfo.current = [marked] ∧
        (empty.afterAll operations).getCurrent app = .ok manifest ∧
        marked.version = manifest.version) ∧
      (∀ label ∈ record.labels, label ≠ "") ∧ record.labels.Nodup ∧
      ∀ version ∈ record.versions, version.manifest.problem? = none ∧
        version.manifest.name = app := by
  have wellFormed := wellFormed_empty.afterAll operations app record stored
  have found := record?_eq_ok_iff.mpr stored
  refine ⟨List.ne_nil_of_length_pos (Nat.zero_lt_of_lt wellFormed.inRange), wellFormed.inRange, ?_,
    wellFormed.labelled, wellFormed.distinct, ?_⟩
  · rcases wellFormed.exists_current? with ⟨version, -, isCurrent⟩
    have labels := record.map_version_filter_infos
    rw [isCurrent, Option.map_some, Option.toList_some, List.map_eq_singleton_iff] at labels
    rcases labels with ⟨marked, single, labelled⟩
    refine ⟨record.infos, marked, version.manifest, ?_, single, ?_, labelled⟩
    · rw [listVersions, found]
      rfl
    · simp [getCurrent, found, isCurrent, bind, Except.bind, pure, Except.pure]
  · intro version member
    exact ⟨Option.isNone_iff_eq_none.mp (wellFormed.valid version member),
      wellFormed.named version member⟩

/-- Labels given out and chosen, a label twice, a step back, an unknown version, and a pruning. -/
theorem histories_afterAll_of_failures :
    let manifest : String → Manifest := .new ⟨"shop"⟩
    let store := empty.afterAll
      [.put ⟨1, 0⟩ ⟨"shop"⟩ (manifest "v2"), .put ⟨2, 0⟩ ⟨"shop"⟩ (manifest ""),
        .put ⟨3, 0⟩ ⟨"shop"⟩ (manifest "v2"), .put ⟨4, 0⟩ ⟨"cart"⟩ (manifest "v1"),
        .put ⟨5, 0⟩ ⟨"shop"⟩ (manifest "v9"), .rollback ⟨"shop"⟩ "v3", .rollback ⟨"shop"⟩ "v7",
        .prune ⟨"cart"⟩ 1, .prune ⟨"shop"⟩ 2, .setDeployment ⟨"cart"⟩ none]
    ∃ record, store.apps.find? ⟨"shop"⟩ = some record ∧ record.labels = ["v3", "v9"] ∧
      store.apps.find? ⟨"cart"⟩ = none ∧ record.current < record.versions.length ∧
      record.labels.Nodup ∧ ∃ infos marked manifest, store.listVersions ⟨"shop"⟩ = .ok infos ∧
        infos.filter VersionInfo.current = [marked] ∧
        store.getCurrent ⟨"shop"⟩ = .ok manifest ∧ marked.version = manifest.version := by
  intro manifest store
  have labels : (store.apps.find? ⟨"shop"⟩).map AppRecord.labels = some ["v3", "v9"] := by
    decide +kernel
  rcases Option.map_eq_some_iff.mp labels with ⟨record, found, labelled⟩
  rcases histories_afterAll _ found with ⟨-, inRange, marked, -, distinct, -⟩
  exact ⟨record, found, labelled, by decide +kernel, inRange, distinct, marked⟩

end Store

end Reconciler
