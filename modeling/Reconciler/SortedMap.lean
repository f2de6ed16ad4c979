/-!
# Maps in key order

A `SortedMap` lists its entries by strictly increasing key. Two maps that answer every look-up alike
are therefore equal values, and whatever walks over a map meets its entries in key order.
-/

namespace Reconciler

variable {κ : Type} {ν : Type} [Ord κ]

/-- Entries with strictly increasing keys. -/
structure SortedMap (κ ν : Type) [Ord κ] where
  entries : List (κ × ν)
  sorted : entries.Pairwise fun first second => compare first.1 second.1 = .lt

namespace SortedMap

/-- Puts an entry at its place, in place of an entry with the same key. -/
def insertEntry (key : κ) (value : ν) : List (κ × ν) → List (κ × ν)
  | [] => [(key, value)]
  | entry :: rest =>
    match compare key entry.1 with
    | .lt => (key, value) :: entry :: rest
    | .eq => (key, value) :: rest
    | .gt => entry :: insertEntry key value rest

theorem mem_insertEntry {key : κ} {value : ν} {entry : κ × ν} {entries : List (κ × ν)}
    (member : entry ∈ insertEntry key value entries) : entry = (key, value) ∨ entry ∈ entries := by
  induction entries with
  | nil => simpa [insertEntry] using member
  | cons head rest ih =>
    simp only [insertEntry] at member
    split at member
    · simpa using member
    · rcases List.mem_cons.mp member with same | inRest
      · exact Or.inl same
      · exact Or.inr (List.mem_cons_of_mem _ inRest)
    · rcases List.mem_cons.mp member with same | inRest
      · exact Or.inr (same ▸ List.mem_cons_self)
      · exact (ih inRest).imp_right (List.mem_cons_of_mem _)

theorem insertEntry_sorted [Std.TransOrd κ] [Std.LawfulEqOrd κ] (key : κ) (value : ν)
    {entries : List (κ × ν)}
    (sorted : entries.Pairwise fun first second => compare first.1 second.1 = .lt) :
    (insertEntry key value entries).Pairwise fun first second =>
      compare first.1 second.1 = .lt := by
  induction entries with
  | nil => simp [insertEntry]
  | cons head rest ih =>
    obtain ⟨headBefore, restSorted⟩ := List.pairwise_cons.mp sorted
    simp only [insertEntry]
    split
    · rename_i before
      refine List.pairwise_cons.mpr ⟨fun entry member => ?_, sorted⟩
      rcases List.mem_cons.mp member with rfl | inRest
      · exact before
      · exact Std.TransCmp.lt_trans before (headBefore entry inRest)
    · rename_i same
      obtain rfl := Std.LawfulEqOrd.eq_of_compare same
      exact List.pairwise_cons.mpr ⟨headBefore, restSorted⟩
    · rename_i after
      refine List.pairwise_cons.mpr ⟨fun entry member => ?_, ih restSorted⟩
      rcases mem_insertEntry member with rfl | inRest
      · exact Std.OrientedCmp.lt_of_gt after
      · exact headBefore entry inRest

@[ext]
theorem ext {first second : SortedMap κ ν} (same : first.entries = second.entries) :
    first = second := by
  cases first
  cases second
  cases same
  rfl

instance [DecidableEq κ] [DecidableEq ν] : DecidableEq (SortedMap κ ν) :=
  fun first second => decidable_of_iff (first.entries = second.entries) ⟨ext, fun same => same ▸ rfl⟩

/-- The map without entries. -/
def empty : SortedMap κ ν :=
  ⟨[], List.Pairwise.nil⟩

instance : EmptyCollection (SortedMap κ ν) :=
  ⟨empty⟩

instance : Inhabited (SortedMap κ ν) :=
  ⟨empty⟩

/-- The value under a key, if the map has the key. -/
def find? (map : SortedMap κ ν) (key : κ) : Option ν :=
  (map.entries.find? fun entry => compare entry.1 key == .eq).map Prod.snd

/-- Whether the map has a key. -/
def contains (map : SortedMap κ ν) (key : κ) : Bool :=
  (map.find? key).isSome

/-- The map with a key set to a value. -/
def insert [Std.TransOrd κ] [Std.LawfulEqOrd κ] (map : SortedMap κ ν) (key : κ) (value : ν) :
    SortedMap κ ν :=
  ⟨insertEntry key value map.entries, insertEntry_sorted key value map.sorted⟩

/-- The entries that pass a test. -/
def filter (map : SortedMap κ ν) (keep : κ → ν → Bool) : SortedMap κ ν :=
  ⟨map.entries.filter fun entry => keep entry.1 entry.2, map.sorted.filter _⟩

/-- The map without a key. -/
def erase (map : SortedMap κ ν) (key : κ) : SortedMap κ ν :=
  map.filter fun other _ => compare other key != .eq

/-- The map with every value changed, under the same keys. -/
def mapValues {ω : Type} (change : κ → ν → ω) (map : SortedMap κ ν) : SortedMap κ ω :=
  ⟨map.entries.map fun entry => (entry.1, change entry.1 entry.2),
    List.pairwise_map.mpr map.sorted⟩

/-- The map with the value under a key changed, if the map has the key. -/
def adjust (map : SortedMap κ ν) (key : κ) (change : ν → ν) : SortedMap κ ν :=
  map.mapValues fun other value => if compare other key == .eq then change value else value

/-- The map of a list of entries, in which a later entry replaces an earlier one of its key. -/
def ofList [Std.TransOrd κ] [Std.LawfulEqOrd κ] (entries : List (κ × ν)) : SortedMap κ ν :=
  entries.foldl (fun map entry => map.insert entry.1 entry.2) empty

/-- The values of a list under their keys, each key with its values in the order of the list. -/
def collect [Std.TransOrd κ] [Std.LawfulEqOrd κ] (keyOf : ν → κ) (values : List ν) :
    SortedMap κ (List ν) :=
  values.foldl
    (fun map value => map.insert (keyOf value) ((map.find? (keyOf value)).getD [] ++ [value])) empty

/-- The keys in increasing order. -/
def keys (map : SortedMap κ ν) : List κ :=
  map.entries.map Prod.fst

/-- The values in the order of their keys. -/
def values (map : SortedMap κ ν) : List ν :=
  map.entries.map Prod.snd

/-- The number of entries. -/
def size (map : SortedMap κ ν) : Nat :=
  map.entries.length

/-- Whether every entry passes a test. -/
def all (map : SortedMap κ ν) (test : κ → ν → Bool) : Bool :=
  map.entries.all fun entry => test entry.1 entry.2

@[simp]
theorem find?_empty (key : κ) : (empty : SortedMap κ ν).find? key = none :=
  rfl

end SortedMap

end Reconciler
