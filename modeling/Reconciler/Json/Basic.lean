import Reconciler.Number.Double

/-!
# JSON values

A `Json` value is what a JSON text says, with numbers kept apart by whether they are integers and
object members in the order written, repetitions included.
-/

namespace Reconciler

/-- A JSON value. -/
inductive Json where
  | null
  | bool (value : Bool)
  /-- A number written without fraction and exponent that fits in 64 bits, signed or unsigned. -/
  | integer (value : Int)
  /-- Any other number. -/
  | real (value : Double)
  | string (text : String)
  | array (items : List Json)
  | object (members : List (String × Json))
  /--
  A value that is well formed, so that a reader may pass over it, but that nobody can hold: half of
  a surrogate pair, a number beyond the range of a double, or a value nested too deep.
  -/
  | unkeepable
deriving Inhabited, Repr

namespace Json

mutual

/-- Whether a value and all values inside it can be held. -/
def isKeepable : Json → Bool
  | unkeepable => false
  | array items => areKeepable items
  | object members => membersAreKeepable members
  | _ => true

/-- Whether all values of a list can be held. -/
def areKeepable : List Json → Bool
  | [] => true
  | item :: items => item.isKeepable && areKeepable items

/-- Whether the values of all members can be held. -/
def membersAreKeepable : List (String × Json) → Bool
  | [] => true
  | (_, value) :: members => value.isKeepable && membersAreKeepable members

end

/-- The members of an object; a value of another kind has none. -/
def members : Json → List (String × Json)
  | object members => members
  | _ => []

/-- The items of an array; a value of another kind has none. -/
def items : Json → List Json
  | array items => items
  | _ => []

/-- The member of an object under a name; the last one if the name is repeated. -/
def member? (value : Json) (name : String) : Option Json :=
  value.members.reverse.lookup name

/-- The member of an object under a name, where `null` counts as absent. -/
def present? (value : Json) (name : String) : Option Json :=
  match value.member? name with
  | some null => none
  | found => found

/-- The text of a string. -/
def text? : Json → Option String
  | string text => some text
  | _ => none

/-- The value of an integer that is not negative. -/
def natural? : Json → Option Nat
  | integer (.ofNat value) => some value
  | _ => none

end Json

end Reconciler
