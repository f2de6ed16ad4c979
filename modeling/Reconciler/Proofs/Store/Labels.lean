import Reconciler.Proofs.Store.Chronicle

/-!
# Labels that are given out

A version that is put without a label gets the first free one past the number of versions that are
left. The store does not know the labels of versions that it has pruned; so it may answer a label
that it has answered before, exactly if that of a version which was pruned since the application was
created is the first that is free.
-/

namespace Reconciler

namespace Store

/-- The label that an operation answers for an application. -/
def answered? (store : Store) (app : AppName) : StoreOperation → Option String
  | .put now other manifest =>
    match store.put now other manifest with
    | .ok (_, label) => if other = app then some label else none
    | .error _ => none
  | _ => none

/-- Among operations on an empty store, one meets a condition after the last that deletes an app. -/
def Since (app : AppName) (holds : Store → StoreOperation → Prop)
    (operations : List StoreOperation) : Prop :=
  ∃ before operation more, operations = before ++ operation :: more ∧
    holds (empty.afterAll before) operation ∧
    ∀ later ∈ operation :: more, later.deletes app = false

/-- Since an application was created, a label was answered for one of its versions. -/
def WasAnswered (app : AppName) (label : String) (operations : List StoreOperation) : Prop :=
  Since app (fun store operation => store.answered? app operation = some label) operations

/-- Since an application was created, a version with a label was pruned. -/
def WasPruned (app : AppName) (label : String) (operations : List StoreOperation) : Prop :=
  Since app (fun store operation => store.drops app label operation = true) operations

variable {store next : Store} {app : AppName} {label : String} {operation : StoreOperation}

theorem afterAll_concat (store : Store) (operations : List StoreOperation)
    (operation : StoreOperation) :
    store.afterAll (operations ++ [operation]) = (store.afterAll operations).after operation := by
  rw [afterAll, List.foldl_concat]
  rfl

theorem not_since_nil (app : AppName) (holds : Store → StoreOperation → Prop) :
    ¬Since app holds [] := by
  rintro ⟨before, operation, more, same, -⟩
  exact List.append_ne_nil_of_right_ne_nil before (List.cons_ne_nil operation more) same.symm

/-- What counts since an application was last deleted is what the last operation makes of it. -/
theorem since_concat_iff {holds : Store → StoreOperation → Prop}
    {operations : List StoreOperation} :
    Since app holds (operations ++ [operation]) ↔ operation.deletes app = false ∧
      (holds (empty.afterAll operations) operation ∨ Since app holds operations) := by
  constructor
  · rintro ⟨before, first, more, same, met, spared⟩
    rcases List.eq_nil_or_concat more with rfl | ⟨more, last, rfl⟩
    · rcases List.append_inj' same rfl with ⟨rfl, isFirst⟩
      obtain rfl := List.singleton_inj.mp isFirst
      exact ⟨spared _ List.mem_cons_self, .inl met⟩
    · rw [List.concat_eq_append, ← List.cons_append, ← List.append_assoc] at same
      rcases List.append_inj' same rfl with ⟨rfl, isLast⟩
      obtain rfl := List.singleton_inj.mp isLast
      rw [List.concat_eq_append, ← List.cons_append, List.forall_mem_append,
        List.forall_mem_singleton] at spared
      exact ⟨spared.2, .inr ⟨before, first, more, rfl, met, spared.1⟩⟩
  · rintro ⟨spares, met | ⟨before, first, more, rfl, met, spared⟩⟩
    · exact ⟨operations, operation, [], rfl, met, List.forall_mem_singleton.mpr spares⟩
    · refine ⟨before, first, more ++ [operation], by rw [List.append_assoc, List.cons_append],
        met, ?_⟩
      rw [← List.cons_append, List.forall_mem_append, List.forall_mem_singleton]
      exact ⟨spared, spares⟩

theorem answered?_eq_map_added? (store : Store) (app : AppName) (operation : StoreOperation) :
    store.answered? app operation = (store.added? app operation).map StoredVersion.label := by
  cases operation with
  | put now other manifest =>
      rw [answered?, added?]
      cases store.put now other manifest with
      | error problem => rfl
      | ok result =>
          simp only
          split <;> rfl
  | _ => rfl

/-- The labels in the history of an application. -/
def labels (store : Store) (app : AppName) : List String :=
  (store.versions app).map StoredVersion.label

theorem labels_eq_getD (store : Store) (app : AppName) :
    store.labels app = ((store.apps.find? app).getD .empty).labels := by
  rw [labels, versions]
  cases store.apps.find? app <;> rfl

/-- A label is in the history if it was and is not dropped, or if it has just been answered. -/
theorem WellFormed.mem_labels_after_iff (wellFormed : store.WellFormed) :
    label ∈ (store.after operation).labels app ↔
      label ∈ store.labels app ∧ store.drops app label operation = false ∨
        store.answered? app operation = some label := by
  rw [labels, wellFormed.versions_after, List.map_append, List.mem_append, answered?_eq_map_added?]
  refine or_congr ?_ (by cases store.added? app operation <;> simp [eq_comm])
  simp only [labels, List.mem_map, List.mem_filter, Bool.not_eq_true']
  constructor
  · rintro ⟨stored, ⟨member, kept⟩, rfl⟩
    exact ⟨⟨stored, member, rfl⟩, kept⟩
  · rintro ⟨⟨stored, member, rfl⟩, kept⟩
    exact ⟨stored, ⟨member, kept⟩, rfl⟩

/-- What is dropped without the application being deleted was in its history. -/
theorem mem_labels_of_drops (dropped : store.drops app label operation = true)
    (spares : operation.deletes app = false) : label ∈ store.labels app := by
  cases operation with
  | prune other keep =>
      rw [drops, Bool.and_eq_true, Option.any_eq_true] at dropped
      rcases dropped with ⟨-, record, found, dropped⟩
      rcases List.any_eq_true.mp dropped with ⟨stored, isSpare, labelled⟩
      rw [labels, versions, found]
      exact List.mem_map.mpr ⟨stored, List.eraseIdx_subset (List.mem_of_mem_take isSpare),
        of_decide_eq_true labelled⟩
  | delete other => exact absurd (spares.symm.trans dropped) Bool.false_ne_true
  | _ => exact absurd dropped Bool.false_ne_true

/-- A label that was answered is still in the history, or was pruned. -/
theorem wasAnswered_iff (app : AppName) (label : String) (operations : List StoreOperation) :
    WasAnswered app label operations ↔
      label ∈ (empty.afterAll operations).labels app ∨ WasPruned app label operations := by
  induction operations using List.reverseRecOn with
  | nil =>
      have absent : label ∉ (empty.afterAll []).labels app := List.not_mem_nil
      simp only [WasAnswered, WasPruned, not_since_nil, absent, or_self]
  | append_singleton operations operation ih =>
      have wellFormed := wellFormed_empty.afterAll operations
      rw [WasAnswered, WasPruned, since_concat_iff, since_concat_iff, afterAll_concat,
        wellFormed.mem_labels_after_iff]
      rw [WasAnswered, WasPruned] at ih
      generalize empty.afterAll operations = store at *
      cases deletes : operation.deletes app with
      | true =>
          have isDelete : operation = .delete app := by
            cases operation with
            | delete other => rw [of_decide_eq_true deletes]
            | _ => cases deletes
          subst isDelete
          simp [drops, answered?]
      | false =>
          rw [ih]
          cases dropped : store.drops app label operation with
          | true => simp [mem_labels_of_drops dropped deletes]
          | false => simp [or_assoc, or_left_comm]

/--
A version that is put without a label gets the first numbered one past the number of versions that
are left, which none of them has. It was answered for another version of the application before
exactly if that version has been pruned.
-/
theorem answered_again_iff (operations : List StoreOperation) {now : Timestamp}
    {manifest : Manifest} (unlabelled : manifest.version = "")
    (accepted : (empty.afterAll operations).put now app manifest = .ok (next, label)) :
    let labels := (empty.afterAll operations).labels app
    (∃ number, label = AppRecord.numberedLabel number ∧ labels.length < number ∧
      ∀ passed, labels.length < passed → passed < number →
        AppRecord.numberedLabel passed ∈ labels) ∧
    label ∉ labels ∧ (WasAnswered app label operations ↔ WasPruned app label operations) := by
  intro labels
  have isNext : label = ((empty.afterAll operations).apps.find? app |>.getD .empty).nextLabel := by
    rw [put, if_pos unlabelled] at accepted
    split at accepted
    · cases accepted
    · split at accepted
      · cases accepted
      · cases accepted
        rfl
  have isNew : label ∉ labels := by
    rw [isNext, show labels = _ from labels_eq_getD _ app]
    exact AppRecord.nextLabel_notMem _
  refine ⟨?_, isNew, ?_⟩
  · rcases AppRecord.exists_firstFreeLabel_eq labels labels.length (labels.length + 1) with
      ⟨number, same, bound, passed⟩
    refine ⟨number, ?_, bound, passed⟩
    rw [← same, isNext, AppRecord.nextLabel, show labels = _ from labels_eq_getD _ app,
      AppRecord.labels, List.length_map]
  · rw [wasAnswered_iff]
    exact or_iff_right isNew

/-- The label that is given out was chosen before for a version which has been pruned. -/
theorem answered_again_iff_of_rollback :
    let manifest : String → Manifest := .new ⟨"shop"⟩
    let operations : List StoreOperation :=
      [.put ⟨1, 0⟩ ⟨"shop"⟩ (manifest "v3"), .put ⟨2, 0⟩ ⟨"shop"⟩ (manifest ""),
        .put ⟨3, 0⟩ ⟨"shop"⟩ (manifest ""), .rollback ⟨"shop"⟩ "v2", .prune ⟨"shop"⟩ 1]
    let store := empty.afterAll operations
    ∃ next, (manifest "").version = "" ∧
      store.put ⟨4, 0⟩ ⟨"shop"⟩ (manifest "") = .ok (next, "v3") ∧
      store.labels ⟨"shop"⟩ = ["v2"] ∧ "v3" ∉ store.labels ⟨"shop"⟩ ∧
      WasAnswered ⟨"shop"⟩ "v3" operations := by
  intro manifest operations store
  have answer : ((store.put ⟨4, 0⟩ ⟨"shop"⟩ (manifest "")).map Prod.snd).toOption = some "v3" := by
    decide +kernel
  cases accepted : store.put ⟨4, 0⟩ ⟨"shop"⟩ (manifest "") with
  | error problem => simp [accepted, Except.map, Except.toOption] at answer
  | ok result =>
      rcases result with ⟨next, label⟩
      obtain rfl : label = "v3" := by
        simpa [accepted, Except.map, Except.toOption] using answer
      have known := answered_again_iff operations rfl accepted
      have wasPruned : WasPruned ⟨"shop"⟩ "v3" operations :=
        ⟨operations.dropLast, .prune ⟨"shop"⟩ 1, [], rfl, by decide +kernel, by decide⟩
      exact ⟨next, rfl, rfl, by decide +kernel, known.2.1, known.2.2.mpr wasPruned⟩

/-- Of three versions two are pruned; the label of one of them is then given to a fourth. -/
theorem answered_again_of_pruning :
    let manifest (image : String) : Manifest :=
      (Manifest.new ⟨"shop"⟩ "").withComponent (.new "api" .component image)
    let operations : List StoreOperation :=
      [.put ⟨1, 0⟩ ⟨"shop"⟩ (manifest "registry/api:1"),
        .put ⟨2, 0⟩ ⟨"shop"⟩ (manifest "registry/api:2"),
        .put ⟨3, 0⟩ ⟨"shop"⟩ (manifest "registry/api:3"), .prune ⟨"shop"⟩ 1]
    ∃ next, (empty.afterAll operations).put ⟨4, 0⟩ ⟨"shop"⟩ (manifest "registry/api:4") =
        .ok (next, "v2") ∧
      WasAnswered ⟨"shop"⟩ "v2" operations ∧
      (empty.afterAll (operations.take 3)).getVersion ⟨"shop"⟩ "v2" =
        .ok { manifest "registry/api:2" with version := "v2" } ∧
      next.getVersion ⟨"shop"⟩ "v2" = .ok { manifest "registry/api:4" with version := "v2" } := by
  intro manifest operations
  let last : StoreOperation := .put ⟨4, 0⟩ ⟨"shop"⟩ (manifest "registry/api:4")
  refine ⟨(empty.afterAll operations).after last, by decide +kernel, ?_, by decide +kernel,
    by decide +kernel⟩
  exact ⟨operations.take 1, .put ⟨2, 0⟩ ⟨"shop"⟩ (manifest "registry/api:2"), operations.drop 2,
    rfl, by decide +kernel, by decide⟩

end Store

end Reconciler
