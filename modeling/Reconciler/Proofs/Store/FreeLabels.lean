import Mathlib.Order.Bounds.Basic
import Reconciler.Proofs.Store.Chronicle

/-!
# The search for a free label

The search for the label of a version that has none tries one numbered label after the other, past
the number of versions, until one is free. `AppRecord.SearchEnds` is this search without a limit to
the number of tries. It ends, and at the first label that is free: numbered labels differ, and no
more of them are taken than there are versions. So a version that is put without a label is never
refused for want of one.
-/

namespace Reconciler

namespace AppRecord

/-- The search for a free label that has come to a number ends at a number. -/
inductive SearchEnds (record : AppRecord) : Nat → Nat → Prop
  /-- The label is free. -/
  | here {number : Nat} (free : record.find? (numberedLabel number) = none) :
      SearchEnds record number number
  /-- The label is taken, so that the search goes on. -/
  | later {number found : Nat} (taken : (record.find? (numberedLabel number)).isSome = true)
      (more : SearchEnds record (number + 1) found) : SearchEnds record number found

variable {record : AppRecord}

theorem find?_eq_none_iff {version : String} :
    record.find? version = none ↔ version ∉ record.labels := by
  rw [← find?_isSome_iff, Bool.not_eq_true, Option.isSome_eq_false_iff, Option.isNone_iff_eq_none]

/-- The search ends at a number exactly if it is the first one whose label is free. -/
theorem searchEnds_iff {start found : Nat} :
    record.SearchEnds start found ↔
      IsLeast {number | start ≤ number ∧ numberedLabel number ∉ record.labels} found := by
  constructor
  · intro ends
    induction ends with
    | here free => exact ⟨⟨le_rfl, find?_eq_none_iff.mp free⟩, fun other isFree => isFree.1⟩
    | @later number found taken more ih =>
        rcases ih with ⟨⟨after, free⟩, least⟩
        refine ⟨⟨Nat.le_of_succ_le after, free⟩, ?_⟩
        rintro other ⟨notBefore, otherFree⟩
        have different : number ≠ other := by
          rintro rfl
          exact otherFree (find?_isSome_iff.mp taken)
        exact least ⟨Nat.lt_of_le_of_ne notBefore different, otherFree⟩
  · rintro ⟨⟨after, free⟩, least⟩
    -- Backwards from the number that is found, all labels are taken.
    refine Nat.decreasingInduction' ?_ after (.here (find?_eq_none_iff.mpr free))
    intro number before notBefore more
    refine .later (find?_isSome_iff.mpr ?_) more
    by_contra isFree
    exact Nat.not_le.mpr before (least ⟨notBefore, isFree⟩)

/-- The search makes at most as many tries in vain as there are versions. -/
theorem SearchEnds.le_add_length {start found : Nat} (ends : record.SearchEnds start found) :
    found ≤ start + record.versions.length := by
  rcases searchEnds_iff.mp ends with ⟨_, least⟩
  have taken : ∀ step < found - start, numberedLabel (start + step) ∈ record.labels := by
    intro step before
    by_contra isFree
    have bound : found ≤ start + step := least ⟨Nat.le_add_right start step, isFree⟩
    omega
  have passed := le_length_of_taken taken
  rw [labels, List.length_map] at passed
  omega

/-- The search past the number of versions ends at the label that is given out. -/
theorem exists_searchEnds (record : AppRecord) :
    ∃ number, record.SearchEnds (record.versions.length + 1) number ∧
      record.nextLabel = numberedLabel number := by
  rcases exists_firstFreeLabel_eq record.labels record.versions.length
    (record.versions.length + 1) with ⟨number, isNext, after, passed⟩
  refine ⟨number, searchEnds_iff.mpr ⟨⟨after, ?_⟩, ?_⟩, isNext⟩
  · exact isNext ▸ record.nextLabel_notMem
  · rintro other ⟨notBefore, isFree⟩
    by_contra before
    exact isFree (passed other notBefore (Nat.not_le.mp before))

end AppRecord

namespace Store

/-- A valid version that is put without a label gets the next one. -/
theorem put_of_unlabelled (store : Store) (now : Timestamp) {app : AppName} {manifest : Manifest}
    (named : manifest.name = app) (valid : manifest.isValid = true)
    (unlabelled : manifest.version = "") :
    let record := (store.apps.find? app).getD .empty
    store.put now app manifest =
      .ok (store.withRecord app (record.push { manifest with version := record.nextLabel } now),
        record.nextLabel) := by
  have noProblem : manifest.problem? = none := Option.isNone_iff_eq_none.mp valid
  simp [put, named, noProblem, unlabelled]

end Store

/--
Whatever labels the versions of a history have: the search for a free label past the number of
versions ends, after no more tries in vain than there are versions, and the label that is given out
is that of the least number past the number of versions whose label no version has. So a valid
manifest that is put under its own name without a label is always accepted, under this label, and is
then current.
-/
theorem AppRecord.nextLabel_first_free (record : AppRecord) :
    let count := record.versions.length
    ∃ number, record.SearchEnds (count + 1) number ∧
      record.nextLabel = numberedLabel number ∧
      IsLeast {candidate | count + 1 ≤ candidate ∧ numberedLabel candidate ∉ record.labels}
        number ∧
      number ≤ 2 * count + 1 ∧
      ∀ (store : Store) (now : Timestamp) (app : AppName) (manifest : Manifest),
        (store.apps.find? app).getD .empty = record → manifest.name = app →
        manifest.isValid = true → manifest.version = "" →
        ∃ next, store.put now app manifest = .ok (next, numberedLabel number) ∧
          next.getCurrent app = .ok { manifest with version := numberedLabel number } := by
  intro count
  rcases record.exists_searchEnds with ⟨number, ends, isNext⟩
  have bound : number ≤ count + 1 + count := ends.le_add_length
  refine ⟨number, ends, isNext, searchEnds_iff.mp ends, by omega, ?_⟩
  rintro store now app manifest rfl named valid unlabelled
  have accepted := store.put_of_unlabelled now named valid unlabelled
  simp only [isNext] at accepted
  refine ⟨_, accepted, Store.getCurrent_of_current? (Option.bind_eq_some_iff.mpr ?_)⟩
  exact ⟨_, (Store.find?_withRecord ..).trans (if_pos rfl), current?_push ..⟩

/-- Two of three versions have the labels that come first, so that the third one is given out. -/
theorem AppRecord.nextLabel_first_free_of_taken :
    let manifest : String → Manifest := .new ⟨"shop"⟩
    let store := Store.empty.afterAll
      [.put ⟨1, 0⟩ ⟨"shop"⟩ (manifest "v4"), .put ⟨2, 0⟩ ⟨"shop"⟩ (manifest "v5"),
        .put ⟨3, 0⟩ ⟨"shop"⟩ (manifest "stable")]
    let record := (store.apps.find? ⟨"shop"⟩).getD .empty
    record.labels = ["v4", "v5", "stable"] ∧ record.SearchEnds 4 6 ∧
      (manifest "").isValid = true ∧ (manifest "").version = "" ∧
      ∃ next, store.put ⟨4, 0⟩ ⟨"shop"⟩ (manifest "") = .ok (next, "v6") ∧
        next.getCurrent ⟨"shop"⟩ = .ok (manifest "v6") := by
  intro manifest store record
  have labels : record.labels = ["v4", "v5", "stable"] := by decide +kernel
  have count : record.versions.length = 3 := by decide +kernel
  have valid : (manifest "").isValid = true := by decide +kernel
  rcases record.nextLabel_first_free with ⟨number, ends, isNext, -, -, accepts⟩
  have answer : record.nextLabel = numberedLabel 6 := by decide +kernel
  obtain rfl : number = 6 := numberedLabel_injective (isNext.symm.trans answer)
  rw [count] at ends
  exact ⟨labels, ends, valid, rfl, accepts store ⟨4, 0⟩ ⟨"shop"⟩ (manifest "") rfl rfl valid rfl⟩

end Reconciler
