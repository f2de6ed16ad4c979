import Reconciler.Config.Setting

/-!
# Settings from the environment

Variables whose names start with `LATTICE_` are settings. Two underscores in a name separate the
parts of a path, and the value is taken for what it looks like.
-/

namespace Reconciler

open Text

namespace Setting

/-- What the names of variables that are settings start with, in lower case. -/
def variableStart : String :=
  "lattice_"

/-- The keys of settings whose values are lists. -/
def listKeys : List String :=
  ["engine.partition.peers", "engine.partition.owned"]

/-- The key that a variable sets. -/
def variableKey? (name : String) : Option String :=
  let lowered := foldName name
  if lowered.startsWith variableStart then
    some ((String.ofList (lowered.toList.drop variableStart.length)).replace "__" ".")
  else none

/-- A truth value, in whatever case. -/
def readBool? (value : String) : Option Bool :=
  match value.toLower with
  | "true" => some true
  | "false" => some false
  | _ => none

/-- An integer that fits in 64 bits with a sign. -/
def readInteger? (value : String) : Option Int :=
  let (negative, digits) := Double.splitSign value.toList
  let number : Int := decimalNumber digits
  let signed := if negative then -number else number
  if digits ≠ [] ∧ digits.all isDecimalDigit ∧ -signBit ≤ signed ∧ signed < signBit then
    some signed
  else none

/-- The setting that the value of a variable stands for. -/
def ofVariable (key value : String) : Setting :=
  match readBool? value, readInteger? value, Double.read? value with
  | some value, _, _ => bool value
  | none, some value, _ => integer value
  | none, none, some value => real value
  | none, none, none =>
    if listKeys.contains key then list ((value.splitOn ",").map text) else text value

/-- The settings among variables, by key. -/
def ofEnvironment (environment : List (String × String)) : List (String × Setting) :=
  environment.filterMap fun (name, value) =>
    (variableKey? name).map fun key => (key, ofVariable key value)

end Setting

end Reconciler
