import Reconciler.Identifier
import Reconciler.Proofs.SortedMap

/-!
# Forms that can be read back

A form is lawful if every value is read back from its form, wherever it is read from, and the form
can be held. The shapes that forms are made of keep this: lists and maps of values with lawful
forms have lawful forms, and so have options unless the form of a value is `null`. An object gives
its members as fields, and what is put under a tag is what is found there.
-/

namespace Reconciler

open JsonForm

/-- A form from which every value can be read back. -/
class LawfulForm (α : Type) [JsonForm α] : Prop where
  isKeepable_write : ∀ value : α, (write value).isKeepable = true
  read?_write : ∀ (reading : Reading) (value : α), read? reading (write value) = some value

/-- A form that tells every value from the lack of one. -/
class PresentForm (α : Type) [JsonForm α] : Prop where
  write_ne_null : ∀ value : α, write value ≠ .null

attribute [simp] LawfulForm.isKeepable_write LawfulForm.read?_write

/--
Values that something is assumed of are read back from their forms, and so is, without any
assumption, each value that was itself read from some form.
-/
structure RoundTrips (α : Type) [JsonForm α] (assumed : α → Prop) : Prop where
  read?_write : ∀ value, assumed value → ∀ reading, read? reading (write value) = some value
  read?_write_of_read? : ∀ reading form (value : α), read? reading form = some value →
    ∀ again, read? again (write value) = some value

/-- It is enough that what is assumed holds of all values that are read. -/
theorem RoundTrips.of_forall {α : Type} [JsonForm α] {assumed : α → Prop}
    (back : ∀ value, assumed value → ∀ reading, read? reading (write value) = some value)
    (sound : ∀ reading form value, read? reading form = some value → assumed value) :
    RoundTrips α assumed :=
  ⟨back, fun reading form value isRead => back value (sound reading form value isRead)⟩

theorem LawfulForm.roundTrips (α : Type) [JsonForm α] [LawfulForm α] :
    RoundTrips α fun _ => True :=
  .of_forall (fun value _ reading => LawfulForm.read?_write reading value) fun _ _ _ _ => trivial

namespace Json

@[simp]
theorem areKeepable_eq_all (items : List Json) : areKeepable items = items.all isKeepable := by
  induction items with
  | nil => rfl
  | cons item items ih => rw [areKeepable, ih, List.all_cons]

@[simp]
theorem membersAreKeepable_eq_all (members : List (String × Json)) :
    membersAreKeepable members = members.all fun member => member.2.isKeepable := by
  induction members with
  | nil => rfl
  | cons member members ih => rw [membersAreKeepable, ih, List.all_cons]

@[simp]
theorem isKeepable_string (text : String) : (string text).isKeepable = true :=
  rfl

@[simp]
theorem isKeepable_array (items : List Json) :
    (array items).isKeepable = items.all isKeepable := by
  rw [isKeepable, areKeepable_eq_all]

@[simp]
theorem isKeepable_object (members : List (String × Json)) :
    (object members).isKeepable = members.all fun member => member.2.isKeepable := by
  rw [isKeepable, membersAreKeepable_eq_all]

/-- An object whose members are named after fields, none of them twice, gives them as fields. -/
@[simp]
theorem fields?_object {names : List String} {members : List (String × Json)}
    (known : ∀ name ∈ members.map Prod.fst, name ∈ names)
    (distinct : (members.map Prod.fst).Nodup) :
    (object members).fields? names = some ⟨members, false⟩ := by
  have all : members.filter (fun member => names.contains member.1) = members := by
    refine List.filter_eq_self.mpr fun member isMember => ?_
    exact List.contains_iff_mem.mpr (known _ (List.mem_map_of_mem isMember))
  rw [fields?.eq_def]
  simp only [all, distinct, if_true]

@[simp]
theorem fields?_variant (reading : Reading) (members : List (String × Json))
    (names : List String) :
    Content.fields? (some (object members)) reading names = (object members).fields? names :=
  rfl

/-- What a tag was put before is found under it, unless something was under the tag already. -/
@[simp]
theorem tagged?_object {tag name : String} {members : List (String × Json)}
    (absent : tag ∉ members.map Prod.fst) (keepable : (object members).isKeepable = true) :
    (object ((tag, string name) :: members)).tagged? tag = some (name, object members) := by
  have others : ∀ member ∈ members, (member.1 == tag) = false := by
    intro member isMember
    refine beq_eq_false_iff_ne.mpr fun same => absent ?_
    exact same ▸ List.mem_map_of_mem isMember
  have isTag : ((tag, string name) :: members).partition (fun member => member.1 == tag) =
      ([(tag, string name)], members) := by
    rw [List.partition_eq_filter_filter, List.filter_cons_of_pos (by simp),
      List.filter_cons_of_neg (by simp), List.filter_eq_nil_iff.mpr (by simpa using others),
      List.filter_eq_self.mpr (by simpa using others)]
  have all : (object ((tag, string name) :: members)).isKeepable = true := by
    simpa using keepable
  rw [tagged?, if_pos all]
  simp only [isTag]

/-- Whether a value is an object whose members have some names, in their order. -/
def IsRecord (names : List String) (json : Json) : Prop :=
  ∃ members, json = object members ∧ members.map Prod.fst = names

/-- A tag that is no field of a record can be put on the record and taken off again. -/
theorem tagged?_tagWith {tag name : String} {names : List String} {json : Json}
    (isRecord : json.IsRecord names) (absent : tag ∉ names) (keepable : json.isKeepable = true) :
    (json.tagWith tag name).tagged? tag = some (name, json) := by
  rcases isRecord with ⟨members, rfl, rfl⟩
  exact tagged?_object absent keepable

@[simp]
theorem isKeepable_tagWith {tag name : String} {names : List String} {json : Json}
    (isRecord : json.IsRecord names) :
    (json.tagWith tag name).isKeepable = json.isKeepable := by
  rcases isRecord with ⟨members, rfl, _⟩
  simp [tagWith, Json.members]

end Json

/-- A field that has to be given was read from some form. -/
theorem Fields.exists_of_required? {α : Type} [JsonForm α] {fields : Fields} {reading : Reading}
    {name : String} {value : α} (isRead : fields.required? reading name = some value) :
    ∃ form, read? reading form = some value := by
  rcases Option.bind_eq_some_iff.mp isRead with ⟨form, _, isValue⟩
  exact ⟨form, isValue⟩

/-- Things that are read back one by one are read back together. -/
theorem mapM_map_eq_some {α β : Type} {change : α → β} {back? : β → Option α}
    (back : ∀ thing, back? (change thing) = some thing) (things : List α) :
    (things.map change).mapM back? = some things := by
  induction things with
  | nil => rfl
  | cons thing things ih => simp [List.mapM_cons, back, ih]

instance : LawfulForm Bool where
  isKeepable_write _ := rfl
  read?_write _ _ := rfl

instance : LawfulForm String where
  isKeepable_write _ := rfl
  read?_write _ _ := rfl

instance : PresentForm String where
  write_ne_null _ := Json.noConfusion

instance : LawfulForm UInt32 where
  isKeepable_write _ := rfl
  read?_write _ value := by
    have bound : value.toNat < UInt32.size := value.toNat_lt_size
    simp [write, read?, readBelow?, bound]

instance : LawfulForm UInt64 where
  isKeepable_write _ := rfl
  read?_write _ value := by
    have bound : value.toNat < UInt64.size := value.toNat_lt_size
    simp [write, read?, readBelow?, bound]

instance : PresentForm UInt64 where
  write_ne_null _ := Json.noConfusion

instance {role : Role} : LawfulForm (Identifier role) where
  isKeepable_write _ := rfl
  read?_write _ _ := rfl

instance {role : Role} : PresentForm (Identifier role) where
  write_ne_null _ := Json.noConfusion

instance {α : Type} [JsonForm α] [LawfulForm α] : LawfulForm (List α) where
  isKeepable_write values := by
    simp [write]
  read?_write reading values :=
    mapM_map_eq_some (LawfulForm.read?_write reading) values

instance {α : Type} [JsonForm α] [LawfulForm α] [PresentForm α] : LawfulForm (Option α) where
  isKeepable_write
    | some value => LawfulForm.isKeepable_write value
    | none => rfl
  read?_write reading
    | none => rfl
    | some value => by
        change (match write value with
          | .null => some none
          | other => (read? reading other).map some) = some (some value)
        split
        · rename_i isNull
          exact absurd isNull (PresentForm.write_ne_null value)
        · rw [LawfulForm.read?_write, Option.map_some]

/-- The form of a value is read as a value that is there. -/
@[simp]
theorem read?_write_some {α : Type} [JsonForm α] [LawfulForm α] [PresentForm α]
    (reading : Reading) (value : α) :
    (read? reading (write value) : Option (Option α)) = some (some value) :=
  LawfulForm.read?_write reading (some value)

instance {ν : Type} [JsonForm ν] [LawfulForm ν] : LawfulForm (SortedMap String ν) where
  isKeepable_write map := by
    simp [write]
  read?_write reading map := by
    have entries : (map.entries.map fun entry : String × ν => (entry.1, write entry.2)).mapM
        (fun member => (read? reading member.2).map (member.1, ·)) = some map.entries :=
      mapM_map_eq_some (by simp) map.entries
    exact (congrArg (Option.map SortedMap.ofList) entries).trans
      (congrArg some map.ofList_entries)

namespace NameTable

variable {α : Type}

/-- Values with names of their own are read back from their names. -/
theorem lawfulForm (table : NameTable α)
    (told : ∀ value, table.value? (table.nameOf value) = some value) :
    @LawfulForm α table.form :=
  letI := table.form
  { isKeepable_write := fun _ => rfl
    read?_write := fun _ value => told value }

end NameTable

end Reconciler
