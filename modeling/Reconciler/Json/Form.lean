import Reconciler.Json.Basic
import Reconciler.SortedMap
import Reconciler.Time.Reader
import Reconciler.Time.Writer
import Reconciler.Uuid

/-!
# JSON forms

A `JsonForm` gives the values of a type their form as JSON, and reads values back from it. The
shapes that forms are made of are here too:

* a record is an object of its fields, unknown members being passed over, or an array of its fields
  in order;
* a variant of a choice is its name, or an object whose only member has that name and holds the
  variant's content;
* a tagged variant is a record in which one more field, or the first item, names the variant.
-/

namespace Reconciler

/--
Where a form is read from. A value inside a tagged variant is held as a whole before its variant is
known, and then accepts `{}` for the content of a variant without content. A value embedded in
another one does not accept an array for the fields of a variant.
-/
inductive Reading where
  | document
  | tagged
  | embedded
deriving DecidableEq, Repr

/-- The JSON form of the values of a type. -/
class JsonForm (α : Type) where
  write : α → Json
  read? : Reading → Json → Option α

namespace JsonForm

/-- Integers from zero up to a limit. -/
def readBelow? (limit : Nat) : Json → Option Nat
  | .integer (.ofNat value) => if value < limit then some value else none
  | _ => none

instance : JsonForm Bool where
  write := .bool
  read? _ json :=
    match json with
    | .bool value => some value
    | _ => none

instance : JsonForm String where
  write := .string
  read? _ json := json.text?

instance : JsonForm UInt32 where
  write value := .integer value.toNat
  read? _ json := (readBelow? UInt32.size json).map UInt32.ofNat

instance : JsonForm UInt64 where
  write value := .integer value.toNat
  read? _ json := (readBelow? UInt64.size json).map UInt64.ofNat

instance : JsonForm Timestamp where
  write time := .string time.write
  read? _ json := json.text?.bind Timestamp.read?

instance : JsonForm Uuid where
  write uuid := .string uuid.write
  read? _ json := json.text?.bind Uuid.read?

instance {α : Type} [JsonForm α] : JsonForm (Option α) where
  write
    | some value => write value
    | none => .null
  read? reading json :=
    match json with
    | .null => some none
    | other => (read? reading other).map some

instance {α : Type} [JsonForm α] : JsonForm (List α) where
  write values := .array (values.map write)
  read? reading json :=
    match json with
    | .array items => items.mapM (read? reading)
    | _ => none

instance {ν : Type} [JsonForm ν] : JsonForm (SortedMap String ν) where
  write map := .object (map.entries.map fun (key, value) => (key, write value))
  read? reading json :=
    match json with
    | .object members =>
      let entries? := members.mapM fun member => (read? reading member.2).map (member.1, ·)
      entries?.map SortedMap.ofList
    | _ => none

end JsonForm

/-- The fields of a record that were given, and whether by position. -/
structure Fields where
  given : List (String × Json)
  positional : Bool
deriving Repr

namespace Fields

variable {α : Type} [JsonForm α]

/-- A field that has to be given. -/
def required? (fields : Fields) (reading : Reading) (name : String) : Option α :=
  (fields.given.lookup name).bind (JsonForm.read? reading)

/-- A field with a value of its own where it is not given. -/
def orElse? (fields : Fields) (reading : Reading) (name : String) (default : α) : Option α :=
  match fields.given.lookup name with
  | some json => JsonForm.read? reading json
  | none => some default

/-- A field that an object need not give; an array gives it, as `null` if need be. -/
def optional? (fields : Fields) (reading : Reading) (name : String) : Option (Option α) :=
  match fields.given.lookup name with
  | some json => JsonForm.read? reading json
  | none => if fields.positional then none else some none

end Fields

/-- The content of a variant: nothing, or a value. -/
abbrev Content :=
  Option Json

namespace Json

/-- The fields of a record, where no known name may be given twice. -/
def fields? (names : List String) : Json → Option Fields
  | object members =>
    let given := members.filter fun member => names.contains member.1
    if (given.map Prod.fst).Nodup then some ⟨given, false⟩ else none
  | array items => if items.length ≤ names.length then some ⟨names.zip items, true⟩ else none
  | _ => none

/-- The name and content of a variant of a choice. -/
def variant? : Json → Option (String × Content)
  | string name => some (name, none)
  | object [(name, content)] => some (name, some content)
  | _ => none

/-- The name of a tagged variant, and the record without the tag. -/
def tagged? (tag : String) (json : Json) : Option (String × Json) :=
  if json.isKeepable then
    match json with
    | object members =>
      match members.partition fun member => member.1 == tag with
      | ([(_, string name)], rest) => some (name, object rest)
      | _ => none
    | array (string name :: rest) => some (name, array rest)
    | _ => none
  else none

/-- The record of a tagged variant: a record and one more member, its tag, before the others. -/
def tagWith (tag name : String) (json : Json) : Json :=
  object ((tag, string name) :: json.members)

/-- The form of a variant with fields. -/
def variantForm (name : String) (fields : List (String × Json)) : Json :=
  object [(name, object fields)]

end Json

namespace Content

/-- Whether a content fits a variant that has none. -/
def isUnit (content : Content) (reading : Reading) : Bool :=
  match content with
  | none => true
  | some .null => true
  | some (.object []) => reading == .tagged
  | some _ => false

/-- The value that a variant holds. -/
def value? {α : Type} [JsonForm α] (content : Content) (reading : Reading) : Option α :=
  content.bind (JsonForm.read? reading)

/-- The fields that a variant holds. -/
def fields? (content : Content) (reading : Reading) (names : List String) : Option Fields :=
  match content with
  | some (.array items) => if reading = .embedded then none else (Json.array items).fields? names
  | some json => json.fields? names
  | none => none

end Content

/-- Names for the values of a type without content, first the ones to write, then others to read. -/
structure NameTable (α : Type) where
  nameOf : α → String
  values : List α
  aliases : List (String × α)

namespace NameTable

variable {α : Type}

/-- The value with a name. -/
def value? (table : NameTable α) (name : String) : Option α :=
  (table.values.find? fun value => table.nameOf value == name).or (table.aliases.lookup name)

/-- The form of a choice among variants without content. -/
@[reducible]
def form (table : NameTable α) : JsonForm α where
  write value := .string (table.nameOf value)
  read? reading json := do
    let (name, content) ← json.variant?
    guard (content.isUnit reading)
    table.value? name

end NameTable

end Reconciler
