import Mathlib.Data.List.Nodup
import Mathlib.Data.List.Perm.Subperm
import Reconciler.Proofs.Text.Digits
import Reconciler.Store.Record

/-!
# What becomes of histories

A history is well formed if it has a current version, if the labels of its versions tell them
apart, and if every version is a valid manifest of the application. A label that is given out for a
version without one is free, and pruning takes away the oldest versions but never the current one;
so the history stays well formed.
-/

namespace Reconciler

namespace AppRecord

/-! ### Labels -/

theorem numberedLabel_injective {first second : Nat}
    (same : numberedLabel first = numberedLabel second) : first = second := by
  rw [numberedLabel, numberedLabel, String.append_right_inj] at same
  exact Text.eq_of_toString_eq same

theorem numberedLabel_ne_empty (number : Nat) : numberedLabel number ≠ "" := by
  intro same
  have empty := congrArg String.length same
  simp [numberedLabel] at empty

/-- The search for a free label goes on for as long as the labels on the way are taken. -/
theorem exists_firstFreeLabel_eq (taken : List String) (tries number : Nat) :
    ∃ found, firstFreeLabel taken tries number = numberedLabel found ∧ number ≤ found ∧
      ∀ passed, number ≤ passed → passed < found → numberedLabel passed ∈ taken := by
  induction tries generalizing number with
  | zero =>
      exact ⟨number, rfl, Nat.le_refl _, fun _ after before => absurd before (Nat.not_lt.mpr after)⟩
  | succ tries ih =>
      rw [firstFreeLabel]
      split
      · rename_i isTaken
        rcases ih (number + 1) with ⟨found, same, bound, passed⟩
        refine ⟨found, same, Nat.le_of_succ_le bound, fun other after before => ?_⟩
        rcases Nat.eq_or_lt_of_le after with rfl | later
        · exact List.contains_iff_mem.mp isTaken
        · exact passed other later before
      · exact ⟨number, rfl, Nat.le_refl _,
          fun _ after before => absurd before (Nat.not_lt.mpr after)⟩

/-- The search for a free label only ends at a taken one if all labels on the way are taken. -/
theorem mem_of_firstFreeLabel_mem {taken : List String} {tries number : Nat}
    (ends : firstFreeLabel taken tries number ∈ taken) :
    ∀ step ≤ tries, numberedLabel (number + step) ∈ taken := by
  induction tries generalizing number with
  | zero =>
      intro step bound
      obtain rfl := Nat.le_zero.mp bound
      exact ends
  | succ tries ih =>
      rw [firstFreeLabel] at ends
      split at ends
      · rename_i first
        intro step bound
        cases step with
        | zero => exact List.contains_iff_mem.mp first
        | succ step =>
            have later := ih ends step (Nat.le_of_succ_le_succ bound)
            rwa [Nat.add_assoc, Nat.add_comm 1] at later
      · rename_i free
        exact absurd (List.contains_iff_mem.mpr ends) free

/-- As numbered labels differ, no more of them in a row are taken than labels are taken at all. -/
theorem le_length_of_taken {taken : List String} {number count : Nat}
    (allTaken : ∀ step < count, numberedLabel (number + step) ∈ taken) : count ≤ taken.length := by
  have distinct : ((List.range count).map fun step => numberedLabel (number + step)).Nodup := by
    refine List.Nodup.map ?_ List.nodup_range
    intro first second same
    exact Nat.add_left_cancel (numberedLabel_injective same)
  have subset : ((List.range count).map fun step => numberedLabel (number + step)) ⊆ taken := by
    intro label member
    rcases List.mem_map.mp member with ⟨step, inRange, rfl⟩
    exact allTaken step (List.mem_range.mp inRange)
  have bound := (distinct.subperm subset).length_le
  rwa [List.length_map, List.length_range] at bound

/-- There are more labels on the way than taken ones, so that one of them is free. -/
theorem firstFreeLabel_notMem (taken : List String) (number : Nat) :
    firstFreeLabel taken taken.length number ∉ taken := by
  intro ends
  have allTaken := mem_of_firstFreeLabel_mem ends
  have bound : taken.length + 1 ≤ taken.length :=
    le_length_of_taken fun step inRange => allTaken step (Nat.le_of_lt_succ inRange)
  exact Nat.not_succ_le_self _ bound

theorem nextLabel_notMem (record : AppRecord) : record.nextLabel ∉ record.labels := by
  rw [nextLabel, show record.versions.length = record.labels.length from List.length_map _ |>.symm]
  exact firstFreeLabel_notMem _ _

theorem nextLabel_ne_empty (record : AppRecord) : record.nextLabel ≠ "" := by
  rcases exists_firstFreeLabel_eq record.labels record.versions.length
    (record.versions.length + 1) with ⟨found, same, -, -⟩
  rw [nextLabel, same]
  exact numberedLabel_ne_empty found

variable {record : AppRecord}

/-- A label is found exactly if a version has it. -/
theorem find?_isSome_iff {version : String} :
    (record.find? version).isSome = true ↔ version ∈ record.labels := by
  rw [find?, List.findIdx?_isSome, List.any_eq_true, labels, List.mem_map]
  simp only [beq_iff_eq]

/-- The place of a label is that of the version that has it. -/
theorem exists_of_find? {version : String} {place : Nat}
    (found : record.find? version = some place) :
    ∃ stored, record.versions[place]? = some stored ∧ stored.label = version ∧
      record.version? version = some stored.manifest := by
  rcases List.findIdx?_eq_some_iff_findIdx_eq.mp found with ⟨bound, isPlace⟩
  have here := List.getElem?_eq_getElem bound
  have first : record.versions.find? (fun stored => stored.label == version) =
      some record.versions[place] := by
    rw [List.find?_eq_getElem?_findIdx, isPlace, here]
  have labelled := List.find?_some first
  simp only [beq_iff_eq] at labelled
  exact ⟨_, here, labelled, by rw [version?, first, Option.map_some]⟩

/-- If labels tell the versions apart, a version is found by its label. -/
theorem version?_of_mem (distinct : record.labels.Nodup) {stored : StoredVersion}
    (member : stored ∈ record.versions) : record.version? stored.label = some stored.manifest := by
  cases found : record.versions.find? fun other => other.label == stored.label with
  | none =>
      have absent := List.find?_eq_none.mp found stored member
      exact absurd (beq_self_eq_true _) absent
  | some other =>
      have labelled := List.find?_some found
      simp only [beq_iff_eq] at labelled
      have same : other = stored := List.inj_on_of_nodup_map distinct
        (List.mem_of_find?_eq_some found) member labelled
      rw [version?, found, same, Option.map_some]

/-! ### Pruning -/

/-- The versions that pruning takes away: the oldest ones but for the current one. -/
def spare (record : AppRecord) (keep : Nat) : List StoredVersion :=
  (record.versions.eraseIdx record.current).take (record.excess keep)

/-- The current version stays, and its place is told. -/
theorem getElem?_dropOldest (excess current : Nat) (versions : List StoredVersion) :
    (dropOldest excess current versions).1[(dropOldest excess current versions).2]? =
      versions[current]? := by
  fun_induction dropOldest excess current versions with
  | case1 => rfl
  | case2 => rfl
  | case3 => rfl
  | case4 stored rest excess current ih => rw [ih, List.getElem?_cons_succ]

theorem dropOldest_sublist (excess current : Nat) (versions : List StoredVersion) :
    (dropOldest excess current versions).1.Sublist versions := by
  fun_induction dropOldest excess current versions with
  | case1 => exact .refl _
  | case2 => exact .refl _
  | case3 excess stored rest => exact (List.drop_sublist excess rest).cons_cons stored
  | case4 stored rest excess current ih => exact ih.cons stored

theorem filter_notMem_take {versions : List StoredVersion} (distinct : versions.Nodup)
    (count : Nat) : (versions.filter fun stored => stored ∉ versions.take count) =
      versions.drop count := by
  have apart := List.disjoint_take_drop distinct (Nat.le_refl count)
  conv => lhs; arg 2; rw [← List.take_append_drop count versions]
  rw [List.filter_append, List.filter_eq_nil_iff.mpr, List.nil_append, List.filter_eq_self.mpr]
  · intro stored member
    exact decide_eq_true fun taken => apart taken member
  · intro stored member
    simpa using member

/-- What stays is all but the oldest versions, the current one apart. -/
theorem dropOldest_eq_filter {excess current : Nat} {versions : List StoredVersion}
    (distinct : versions.Nodup) :
    (dropOldest excess current versions).1 =
      versions.filter fun stored => stored ∉ (versions.eraseIdx current).take excess := by
  fun_induction dropOldest excess current versions with
  | case1 => rfl
  | case2 => simp
  | case3 excess stored rest positive =>
      rw [List.nodup_cons] at distinct
      have stays : stored ∉ rest.take excess := fun taken =>
        distinct.1 (List.mem_of_mem_take taken)
      rw [List.eraseIdx_cons_zero, List.filter_cons_of_pos (by simpa using stays),
        filter_notMem_take distinct.2]
  | case4 stored rest excess current ih =>
      rw [List.nodup_cons] at distinct
      rw [List.eraseIdx_cons_succ, List.take_succ_cons, List.filter_cons_of_neg (by simp),
        ih distinct.2]
      refine List.filter_congr fun other member => ?_
      have different : other ≠ stored := fun same => distinct.1 (same ▸ member)
      simp [different]

theorem versions_prune (distinct : record.labels.Nodup) (keep : Nat) :
    (record.prune keep).versions =
      record.versions.filter fun stored => stored ∉ record.spare keep :=
  dropOldest_eq_filter distinct.of_map

theorem current?_prune (record : AppRecord) (keep : Nat) :
    (record.prune keep).current? = record.current? := by
  rw [current?, current?, prune]
  simp only [getElem?_dropOldest]

theorem labels_push (record : AppRecord) (manifest : Manifest) (now : Timestamp) :
    (record.push manifest now).labels = record.labels ++ [manifest.version] :=
  List.map_append

theorem current?_push (record : AppRecord) (manifest : Manifest) (now : Timestamp) :
    (record.push manifest now).current? = some manifest := by
  simp [current?, push]

/-! ### Well-formed histories -/

/-- The labels of a history tell its versions apart, which are valid manifests of an application. -/
structure IsSound (record : AppRecord) (app : AppName) : Prop where
  labelled : ∀ label ∈ record.labels, label ≠ ""
  distinct : record.labels.Nodup
  valid : ∀ stored ∈ record.versions, stored.manifest.isValid = true
  named : ∀ stored ∈ record.versions, stored.manifest.name = app

/-- A history of an application, one of whose versions is current. -/
structure WellFormed (record : AppRecord) (app : AppName) : Prop extends record.IsSound app where
  inRange : record.current < record.versions.length

theorem isSound_empty (app : AppName) : empty.IsSound app where
  labelled _ none := by cases none
  distinct := .nil
  valid _ none := by cases none
  named _ none := by cases none

variable {app : AppName}

theorem IsSound.of_versions_eq {next : AppRecord} (sound : record.IsSound app)
    (same : next.versions = record.versions) : next.IsSound app := by
  have sameLabels : next.labels = record.labels := by rw [labels, labels, same]
  exact ⟨sameLabels ▸ sound.labelled, sameLabels ▸ sound.distinct, same ▸ sound.valid,
    same ▸ sound.named⟩

theorem IsSound.push (sound : record.IsSound app) {manifest : Manifest}
    (labelled : manifest.version ≠ "") (isNew : manifest.version ∉ record.labels)
    (valid : manifest.isValid = true) (named : manifest.name = app) (now : Timestamp) :
    (record.push manifest now).WellFormed app where
  labelled := by
    rw [labels_push, List.forall_mem_append, List.forall_mem_singleton]
    exact ⟨sound.labelled, labelled⟩
  distinct := by
    rw [labels_push, List.nodup_append]
    refine ⟨sound.distinct, List.nodup_singleton _, ?_⟩
    intro label member other isOther same
    rw [List.mem_singleton.mp isOther] at same
    exact isNew (same ▸ member)
  valid := List.forall_mem_append.mpr ⟨sound.valid, List.forall_mem_singleton.mpr valid⟩
  named := List.forall_mem_append.mpr ⟨sound.named, List.forall_mem_singleton.mpr named⟩
  inRange := by simp [AppRecord.push]

theorem WellFormed.prune (wellFormed : record.WellFormed app) (keep : Nat) :
    (record.prune keep).WellFormed app := by
  have part : (record.prune keep).versions.Sublist record.versions := dropOldest_sublist _ _ _
  refine ⟨⟨?_, ?_, ?_, ?_⟩, ?_⟩
  · exact fun label member => wellFormed.labelled label ((part.map _).subset member)
  · exact wellFormed.distinct.sublist (part.map _)
  · exact fun stored member => wellFormed.valid stored (part.subset member)
  · exact fun stored member => wellFormed.named stored (part.subset member)
  · have stays := getElem?_dropOldest (record.excess keep) record.current record.versions
    rw [List.getElem?_eq_getElem wellFormed.inRange] at stays
    exact (List.getElem?_eq_some_iff.mp stays).1

theorem WellFormed.exists_current? (wellFormed : record.WellFormed app) :
    ∃ stored ∈ record.versions, record.current? = some stored.manifest :=
  ⟨_, List.getElem_mem wellFormed.inRange, by
    rw [current?, List.getElem?_eq_getElem wellFormed.inRange, Option.map_some]⟩

theorem filter_zipIdx (versions : List StoredVersion) (start place : Nat) :
    ((versions.zipIdx start).filter fun entry => entry.2 == start + place) =
      (versions[place]?.map fun stored => (stored, start + place)).toList := by
  induction versions generalizing start place with
  | nil => rfl
  | cons stored rest ih =>
      rw [List.zipIdx_cons]
      cases place with
      | zero =>
          have others : ((rest.zipIdx (start + 1)).filter fun entry => entry.2 == start + 0) =
              [] := by
            refine List.filter_eq_nil_iff.mpr fun entry member => ?_
            have later := List.le_snd_of_mem_zipIdx member
            simp only [beq_iff_eq]
            omega
          rw [List.filter_cons_of_pos (by simp), others]
          rfl
      | succ place =>
          have same := ih (start + 1) place
          rw [Nat.add_assoc, Nat.add_comm 1] at same
          rw [List.filter_cons_of_neg (by simp), same, List.getElem?_cons_succ]

/-- A list of versions marks the current one, and no other. -/
theorem map_version_filter_infos (record : AppRecord) :
    (record.infos.filter VersionInfo.current).map VersionInfo.version =
      (record.current?.map Manifest.version).toList := by
  have marked := filter_zipIdx record.versions 0 record.current
  rw [Nat.zero_add] at marked
  rw [infos, List.filter_map, List.map_map, current?]
  refine (congrArg (List.map _) marked).trans ?_
  cases record.versions[record.current]? <;> rfl

end AppRecord

end Reconciler
