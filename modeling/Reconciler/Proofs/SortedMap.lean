import Mathlib.Algebra.BigOperators.Group.List.Basic
import Mathlib.Algebra.Ring.Nat
import Mathlib.Data.List.Induction
import Mathlib.Data.List.Perm.Basic
import Mathlib.Data.List.Sort
import Reconciler.SortedMap

/-!
# Looking up in sorted maps

What each operation on a map does to look-ups. Look-ups tell maps apart, so that an equation
between maps can be shown key by key. Collecting values under their keys keeps all of them, each
under its own key and in the order in which they came.
-/

namespace Reconciler.SortedMap

variable {κ : Type} {ν : Type} [Ord κ]

theorem contains_eq_isSome (map : SortedMap κ ν) (key : κ) :
    map.contains key = (map.find? key).isSome :=
  rfl

section LawfulKeys

variable [Std.LawfulEqOrd κ]

/-- Comparison with a key tells that key from all others. -/
theorem compare_beq_eq [DecidableEq κ] (first second : κ) :
    (compare first second == .eq) = decide (first = second) := by
  by_cases same : first = second
  · subst same
    simp
  · have different : compare first second ≠ .eq :=
      fun equal => same (Std.LawfulEqOrd.eq_of_compare equal)
    simp [same, different]

/-- The entries of a map are what look-up finds. -/
theorem mem_entries_iff {map : SortedMap κ ν} {key : κ} {value : ν} :
    (key, value) ∈ map.entries ↔ map.find? key = some value := by
  rcases map with ⟨entries, sorted⟩
  simp only [find?, Option.map_eq_some_iff, Prod.exists]
  induction entries with
  | nil => simp
  | cons head rest ih =>
      rcases List.pairwise_cons.mp sorted with ⟨headBefore, restSorted⟩
      rw [List.find?_cons]
      by_cases same : compare head.1 key = .eq
      · obtain rfl := Std.LawfulEqOrd.eq_of_compare same
        have absent : (head.1, value) ∉ rest := by
          intro inRest
          have := headBefore _ inRest
          simp at this
        simp only [List.mem_cons, absent, or_false, same, beq_self_eq_true, Option.some.injEq]
        constructor
        · intro isHead
          exact ⟨head.1, value, isHead.symm, rfl⟩
        · rintro ⟨_, _, rfl, rfl⟩
          rfl
      · have notHead : (key, value) ≠ head := by
          rintro rfl
          simp at same
        have tested : (compare head.1 key == .eq) = false := by simpa using same
        simp only [List.mem_cons, notHead, false_or, tested]
        exact ih restSorted

/-- A filter keeps the value that it finds under a key if the value passes the test. -/
@[simp]
theorem find?_filter (map : SortedMap κ ν) (keep : κ → ν → Bool) (key : κ) :
    (map.filter keep).find? key = (map.find? key).filter (keep key) := by
  apply Option.ext
  intro value
  rw [Option.filter_eq_some_iff, ← mem_entries_iff, ← mem_entries_iff]
  exact List.mem_filter

/-- Changing all values changes what is found under a key. -/
@[simp]
theorem find?_mapValues {ω : Type} (change : κ → ν → ω) (map : SortedMap κ ν) (key : κ) :
    (map.mapValues change).find? key = (map.find? key).map (change key) := by
  apply Option.ext
  intro value
  rw [← mem_entries_iff, Option.map_eq_some_iff]
  simp only [mapValues, List.mem_map, Prod.exists, Prod.mk.injEq, ← mem_entries_iff]
  constructor
  · rintro ⟨_, former, member, rfl, changed⟩
    exact ⟨former, member, changed⟩
  · rintro ⟨former, member, changed⟩
    exact ⟨key, former, member, rfl, changed⟩

/-- Erasing a key leaves all other keys alone. -/
@[simp]
theorem find?_erase [DecidableEq κ] (map : SortedMap κ ν) (key other : κ) :
    (map.erase key).find? other = if other = key then none else map.find? other := by
  rw [erase, find?_filter]
  by_cases same : other = key
  · subst same
    simp
  · have kept : (compare other key != .eq) = true := by simp [bne, compare_beq_eq, same]
    cases map.find? other <;> simp [same, kept]

omit [Std.LawfulEqOrd κ] in
theorem pairwise_keys (map : SortedMap κ ν) :
    map.keys.Pairwise fun first second => compare first second = .lt :=
  List.pairwise_map.mpr map.sorted

/-- No key of a map comes twice. -/
theorem nodup_keys (map : SortedMap κ ν) : map.keys.Nodup := by
  refine map.pairwise_keys.imp ?_
  intro first second before same
  rw [same, Std.ReflOrd.compare_self] at before
  exact Ordering.noConfusion before

theorem mem_keys_iff {map : SortedMap κ ν} {key : κ} :
    key ∈ map.keys ↔ ∃ value, map.find? key = some value := by
  simp [keys, ← mem_entries_iff]

theorem mem_values_iff {map : SortedMap κ ν} {value : ν} :
    value ∈ map.values ↔ ∃ key, map.find? key = some value := by
  simp [values, ← mem_entries_iff]

/-- Values that tell the keys they stand under are listed in the order of the keys. -/
theorem map_values_eq_keys {map : SortedMap κ ν} {keyOf : ν → κ}
    (told : ∀ key value, map.find? key = some value → keyOf value = key) :
    map.values.map keyOf = map.keys := by
  rw [values, keys, List.map_map]
  apply List.map_congr_left
  intro entry member
  exact told entry.1 entry.2 (mem_entries_iff.mp member)

omit [Std.LawfulEqOrd κ] in
/-- A filter that looks at a part of the values keeps the same keys when only that part is left. -/
theorem keys_filter_mapValues {ω : Type} (map : SortedMap κ ν) (change : κ → ν → ω)
    (keep : κ → ω → Bool) :
    ((map.mapValues change).filter keep).keys =
      (map.filter fun key value => keep key (change key value)).keys := by
  simp [keys, filter, mapValues, List.filter_map, Function.comp_def]

/-- The entries of a map are the one under a key and those of the other keys. -/
theorem entries_perm_cons_erase [DecidableEq κ] {map : SortedMap κ ν} {key : κ} {value : ν}
    (found : map.find? key = some value) :
    map.entries.Perm ((key, value) :: (map.erase key).entries) := by
  have absent : (key, value) ∉ (map.erase key).entries := by
    rw [mem_entries_iff, find?_erase, if_pos rfl]
    rintro ⟨⟩
  have nodup : ∀ other : SortedMap κ ν, other.entries.Nodup :=
    fun other => List.Nodup.of_map _ other.nodup_keys
  apply (List.perm_ext_iff_of_nodup (nodup map) (List.nodup_cons.mpr ⟨absent, nodup _⟩)).mpr
  rintro ⟨other, otherValue⟩
  rw [List.mem_cons, Prod.mk.injEq, mem_entries_iff, mem_entries_iff, find?_erase]
  by_cases same : other = key
  · rw [same, found, Option.some.injEq]
    simp [eq_comm]
  · simp [same]

/-- One key contributes to a sum over entries what is found under it. -/
theorem sum_entries_ite [DecidableEq κ] (map : SortedMap κ ν) (key : κ) (measure : ν → Nat) :
    (map.entries.map fun entry => if entry.1 = key then measure entry.2 else 0).sum =
      ((map.find? key).map measure).getD 0 := by
  classical
  cases found : map.find? key with
  | none =>
      refine List.sum_eq_zero fun contribution member => ?_
      rcases List.mem_map.mp member with ⟨⟨other, value⟩, entryMember, rfl⟩
      have different : other ≠ key := by
        rintro rfl
        cases found.symm.trans (mem_entries_iff.mp entryMember)
      exact if_neg different
  | some value =>
      have member : (key, value) ∈ map.entries := mem_entries_iff.mpr found
      have nodup : map.entries.Nodup := List.Nodup.of_map _ map.nodup_keys
      rw [List.sum_map_eq_nsmul_single (key, value)]
      · simp [List.count_eq_one_of_mem, nodup, member]
      · intro entry different entryMember
        refine if_neg fun same => different ?_
        exact List.inj_on_of_nodup_map map.nodup_keys entryMember member same

/-- A map that leads from names in another map back to their keys has as many entries. -/
theorem size_eq_of_inverse {ι : Type} [Ord ι] [Std.LawfulEqOrd ι] {index : SortedMap ι κ}
    {map : SortedMap κ ν} {nameOf : ν → ι}
    (inverse : ∀ name key,
      index.find? name = some key ↔ (map.find? key).map nameOf = some name) :
    index.size = map.size := by
  have nodup : (map.entries.map fun entry => nameOf entry.2).Nodup := by
    refine List.Nodup.map_on ?_ (List.Nodup.of_map _ map.nodup_keys)
    intro first firstMember second secondMember same
    have firstNamed := (inverse (nameOf first.2) first.1).mpr
      (by rw [mem_entries_iff.mp firstMember, Option.map_some])
    have secondNamed := (inverse (nameOf first.2) second.1).mpr
      (by rw [mem_entries_iff.mp secondMember, Option.map_some, same])
    have sameKey : first.1 = second.1 := Option.some.inj (firstNamed.symm.trans secondNamed)
    exact List.inj_on_of_nodup_map map.nodup_keys firstMember secondMember sameKey
  have names : index.keys.Perm (map.entries.map fun entry => nameOf entry.2) := by
    refine (List.perm_ext_iff_of_nodup index.nodup_keys nodup).mpr fun name => ?_
    rw [mem_keys_iff]
    simp only [inverse, Option.map_eq_some_iff, List.mem_map, Prod.exists, mem_entries_iff]
  simpa [keys, size] using names.length_eq

end LawfulKeys

variable [Std.TransOrd κ] [Std.LawfulEqOrd κ]

/-- Maps that answer every look-up alike are equal. -/
theorem ext_find? {first second : SortedMap κ ν}
    (same : ∀ key, first.find? key = second.find? key) : first = second := by
  apply SortedMap.ext
  have irreflexive : Std.Irrefl fun first second : κ × ν => compare first.1 second.1 = .lt :=
    ⟨fun entry => by simp⟩
  have antisymmetric :
      Std.Antisymm fun first second : κ × ν => compare first.1 second.1 = .lt :=
    ⟨fun first second before after => by
      have := Std.OrientedCmp.gt_of_lt before
      simp [after] at this⟩
  apply first.sorted.eq_of_mem_iff second.sorted
  rintro ⟨key, value⟩
  rw [mem_entries_iff, mem_entries_iff, same key]

/-- Maps with values under the same keys list the same keys. -/
theorem keys_congr {first second : SortedMap κ ν}
    (same : ∀ key, (first.find? key).isSome = (second.find? key).isSome) :
    first.keys = second.keys := by
  have blanks : (first.mapValues fun _ _ => ()) = second.mapValues fun _ _ => () := by
    apply ext_find?
    intro key
    have present := same key
    rw [find?_mapValues, find?_mapValues]
    cases ofFirst : first.find? key <;> cases ofSecond : second.find? key <;>
      simp [ofFirst, ofSecond] at present ⊢
  have keys : (first.mapValues fun _ _ => ()).keys = (second.mapValues fun _ _ => ()).keys :=
    congrArg SortedMap.keys blanks
  simp only [SortedMap.keys, mapValues, List.map_map] at keys
  exact keys

/-- Inserting under a key leaves all other keys alone. -/
@[simp]
theorem find?_insert [DecidableEq κ] (map : SortedMap κ ν) (key other : κ) (value : ν) :
    (map.insert key value).find? other = if other = key then some value else map.find? other := by
  rcases map with ⟨entries, sorted⟩
  simp only [insert, find?, compare_beq_eq]
  clear sorted
  induction entries with
  | nil =>
      by_cases same : other = key
      · simp [insertEntry, same]
      · simp [insertEntry, same, Ne.symm same]
  | cons head rest ih =>
      simp only [insertEntry]
      split
      · by_cases same : other = key
        · simp [same]
        · simp [same, Ne.symm same]
      · rename_i equal
        have isKey : key = head.1 := Std.LawfulEqOrd.eq_of_compare equal
        by_cases same : other = key
        · simp [same]
        · simp [← isKey, same, Ne.symm same]
      · rename_i after
        have notKey : head.1 ≠ key := by
          rintro rfl
          simp at after
        by_cases same : head.1 = other
        · subst same
          simp [notKey]
        · simpa [List.find?_cons, same] using ih

/-- Erasing a key that a map does not have changes nothing. -/
theorem erase_eq_self [DecidableEq κ] {map : SortedMap κ ν} {key : κ}
    (absent : map.find? key = none) : map.erase key = map := by
  apply ext_find?
  intro other
  rw [find?_erase]
  by_cases same : other = key
  · simp [same, absent]
  · simp [same]

/-- Inserting under a key puts one value into a sum over all values in the place of another. -/
theorem sum_values_insert [DecidableEq κ] (map : SortedMap κ ν) (key : κ) (value : ν)
    (measure : ν → Nat) :
    ((map.insert key value).values.map measure).sum + ((map.find? key).map measure).getD 0 =
      (map.values.map measure).sum + measure value := by
  have sumOf : ∀ {other : SortedMap κ ν} {under : ν}, other.find? key = some under →
      (other.values.map measure).sum =
        measure under + ((other.erase key).values.map measure).sum := by
    intro other under found
    simp only [values]
    rw [(((entries_perm_cons_erase found).map Prod.snd).map measure).sum_eq]
    rfl
  have others : (map.insert key value).erase key = map.erase key := by
    apply ext_find?
    intro other
    rw [find?_erase, find?_erase, find?_insert]
    by_cases same : other = key <;> simp [same]
  have inserted : (map.insert key value).find? key = some value := by simp
  rw [sumOf inserted, others]
  cases found : map.find? key with
  | none =>
      rw [erase_eq_self found, Option.map_none, Option.getD_none, Nat.add_zero, Nat.add_comm]
  | some former =>
      rw [sumOf found, Option.map_some, Option.getD_some]
      omega

section Lists

variable [DecidableEq κ]

/-- The map of a list has under a key the last value that the list has for the key. -/
theorem find?_ofList (entries : List (κ × ν)) (key : κ) :
    (ofList entries).find? key =
      (entries.reverse.find? fun entry => entry.1 = key).map Prod.snd := by
  induction entries using List.reverseRecOn with
  | nil => rfl
  | append_singleton entries entry ih =>
      have split : ofList (entries ++ [entry]) = (ofList entries).insert entry.1 entry.2 :=
        List.foldl_concat ..
      rw [split, find?_insert, List.reverse_concat, List.find?_cons]
      by_cases same : key = entry.1
      · simp [same]
      · simpa [same, Ne.symm same] using ih

/-- What the map of a list has under a key stands in the list. -/
theorem mem_of_find?_ofList {entries : List (κ × ν)} {key : κ} {value : ν}
    (found : (ofList entries).find? key = some value) : (key, value) ∈ entries := by
  rw [find?_ofList, Option.map_eq_some_iff] at found
  rcases found with ⟨⟨other, _⟩, entryFound, rfl⟩
  have sameKey : other = key := by simpa using List.find?_some entryFound
  exact List.mem_reverse.mp (sameKey ▸ List.mem_of_find?_eq_some entryFound)

/-- The map of a list has every key that the list has. -/
theorem contains_ofList {entries : List (κ × ν)} {entry : κ × ν} (member : entry ∈ entries) :
    (ofList entries).contains entry.1 = true := by
  rw [contains_eq_isSome, find?_ofList, Option.isSome_map, List.find?_isSome]
  exact ⟨entry, List.mem_reverse.mpr member, by simp⟩

/-- If no key comes twice in a list, the map of the list has all its entries. -/
theorem entries_ofList_perm {entries : List (κ × ν)} (distinct : (entries.map Prod.fst).Nodup) :
    (ofList entries).entries.Perm entries := by
  have nodup : (ofList entries).entries.Nodup := (nodup_keys (ofList entries)).of_map
  refine (List.perm_ext_iff_of_nodup nodup distinct.of_map).mpr ?_
  rintro ⟨key, value⟩
  rw [mem_entries_iff]
  constructor
  · exact mem_of_find?_ofList
  · intro member
    rcases Option.isSome_iff_exists.mp (contains_ofList member) with ⟨other, found⟩
    have same : (key, other) = (key, value) :=
      List.inj_on_of_nodup_map distinct (mem_of_find?_ofList found) member rfl
    rw [found, (Prod.mk.inj same).2]

/-- A map is the map of its entries. -/
theorem ofList_entries (map : SortedMap κ ν) : ofList map.entries = map := by
  apply ext_find?
  intro key
  apply Option.ext
  intro value
  constructor
  · intro found
    exact mem_entries_iff.mp (mem_of_find?_ofList found)
  · intro found
    have member := mem_entries_iff.mpr found
    rcases Option.isSome_iff_exists.mp (contains_ofList member) with ⟨other, otherFound⟩
    have same := found.symm.trans (mem_entries_iff.mp (mem_of_find?_ofList otherFound))
    rw [otherFound, same]

/-- Collecting further values adds them, in order, to those collected before under their keys. -/
theorem find?_foldl_collect (keyOf : ν → κ) (values : List ν) (map : SortedMap κ (List ν))
    (key : κ) :
    (values.foldl (fun map value =>
        map.insert (keyOf value) ((map.find? (keyOf value)).getD [] ++ [value])) map).find? key =
      if (values.filter fun value => keyOf value = key) = [] then map.find? key
      else some ((map.find? key).getD [] ++ values.filter fun value => keyOf value = key) := by
  induction values generalizing map with
  | nil => rfl
  | cons head rest ih =>
      rw [List.foldl_cons, ih, find?_insert]
      by_cases same : keyOf head = key
      · subst same
        by_cases last : (rest.filter fun value => keyOf value = keyOf head) = []
        · simp [last]
        · simp [last]
      · simp [same, Ne.symm same]

/-- Under a key stand the values with that key, in their order. -/
theorem find?_collect (keyOf : ν → κ) (values : List ν) (key : κ) :
    (collect keyOf values).find? key =
      if (values.filter fun value => keyOf value = key) = [] then none
      else some (values.filter fun value => keyOf value = key) := by
  simp [collect, find?_foldl_collect]

theorem mem_entries_collect_iff {keyOf : ν → κ} {values group : List ν} {key : κ} :
    (key, group) ∈ (collect keyOf values).entries ↔
      group ≠ [] ∧ group = values.filter fun value => keyOf value = key := by
  rw [mem_entries_iff, find?_collect]
  split
  · rename_i nothing
    simp only [reduceCtorEq, nothing, false_iff, not_and]
    exact fun nonempty => nonempty
  · rename_i nonempty
    rw [Option.some.injEq]
    constructor
    · rintro rfl
      exact ⟨nonempty, rfl⟩
    · exact fun same => same.2.symm

omit [Ord κ] [Std.TransOrd κ] [Std.LawfulEqOrd κ] in
/-- Values taken together key by key are all the values, if no key is missing. -/
theorem flatMap_filter_perm {keyOf : ν → κ} {keys : List κ} (nodup : keys.Nodup)
    {values : List ν} (complete : ∀ value ∈ values, keyOf value ∈ keys) :
    (keys.flatMap fun key => values.filter fun value => keyOf value = key).Perm values := by
  induction keys generalizing values with
  | nil =>
      have nothing : values = [] :=
        List.eq_nil_iff_forall_not_mem.mpr fun value member =>
          List.not_mem_nil (complete value member)
      rw [nothing]
      rfl
  | cons key keys ih =>
      rcases List.nodup_cons.mp nodup with ⟨absent, restNodup⟩
      -- Values with another key are found in the rest as if those with the first key were gone.
      have others : ∀ other ∈ keys, (values.filter fun value => keyOf value = other) =
          (values.filter fun value => !decide (keyOf value = key)).filter
            fun value => keyOf value = other := by
        intro other member
        rw [List.filter_filter]
        refine List.filter_congr fun value _ => ?_
        by_cases same : keyOf value = other
        · have different : keyOf value ≠ key := fun isKey => absent (isKey ▸ same ▸ member)
          simp [same, same ▸ different]
        · simp [same]
      have restComplete : ∀ value ∈ values.filter fun value => !decide (keyOf value = key),
          keyOf value ∈ keys := by
        intro value member
        rcases List.mem_filter.mp member with ⟨inValues, different⟩
        exact (List.mem_cons.mp (complete value inValues)).resolve_left (by simpa using different)
      rw [List.flatMap_cons, List.flatMap_congr others]
      exact ((ih restNodup restComplete).append_left _).trans (List.filter_append_perm _ _)

/-- Values changed before they are collected are collected and then changed. -/
theorem collect_map {ω : Type} (keyOf : ω → κ) (change : ν → ω) (values : List ν) :
    collect keyOf (values.map change) =
      (collect (fun value => keyOf (change value)) values).mapValues
        fun _ group => group.map change := by
  apply ext_find?
  intro key
  rw [find?_mapValues, find?_collect, find?_collect, List.filter_map]
  simp only [List.map_eq_nil_iff, Function.comp_def]
  split <;> rfl

/-- Collecting keeps all values. -/
theorem collect_perm (keyOf : ν → κ) (values : List ν) :
    ((collect keyOf values).entries.flatMap Prod.snd).Perm values := by
  have byKey : ((collect keyOf values).entries.flatMap Prod.snd) =
      (collect keyOf values).keys.flatMap fun key =>
        values.filter fun value => keyOf value = key := by
    rw [keys, List.flatMap_map]
    refine List.flatMap_congr fun entry member => ?_
    exact (mem_entries_collect_iff.mp member).2
  rw [byKey]
  refine flatMap_filter_perm (nodup_keys _) fun value member => ?_
  rw [mem_keys_iff]
  refine ⟨values.filter fun other => keyOf other = keyOf value, ?_⟩
  rw [find?_collect, if_neg]
  exact List.ne_nil_of_mem (List.mem_filter.mpr ⟨member, by simp⟩)

end Lists

end Reconciler.SortedMap
