import Reconciler.Number.Double

/-!
# Trees of settings

Settings come from several sources, a later one overriding an earlier one. What a source gives is
put into a tree, so that a source need not give a whole section to change one setting of it.
-/

namespace Reconciler

/-- A setting, a list of settings, or a table of settings by name. -/
inductive Setting where
  | absent
  | bool (value : Bool)
  | integer (value : Int)
  | real (value : Double)
  | text (text : String)
  | list (items : List Setting)
  | table (entries : List (String × Setting))
deriving Inhabited

namespace Setting

/-- The entries of a table; another setting has none. -/
def entries : Setting → List (String × Setting)
  | table entries => entries
  | _ => []

/-- The items of a list; another setting has none. -/
def items : Setting → List Setting
  | list items => items
  | _ => []

/-- The entry of a table under a name. -/
def entry? (setting : Setting) (name : String) : Option Setting :=
  setting.entries.lookup name

/-- The entries with one of them replaced, or added at the end. -/
def replaceEntry (name : String) (value : Setting) :
    List (String × Setting) → List (String × Setting)
  | [] => [(name, value)]
  | entry :: rest =>
    if entry.1 = name then (name, value) :: rest else entry :: replaceEntry name value rest

/-- The table with an entry replaced or added; what is no table becomes one. -/
def put (setting : Setting) (name : String) (value : Setting) : Setting :=
  table (replaceEntry name value setting.entries)

/--
The list with an item replaced by what comes of it, and what is no list becomes one. A place below
zero counts from the end. The list is filled up as needed, at either end.
-/
def changeItem (setting : Setting) (place : Int) (change : Setting → Setting) : Setting :=
  let items := setting.items
  let start := (-place).toNat - items.length
  let index := if place < 0 then items.length - (-place).toNat else place.toNat
  let filled := List.replicate start absent ++ items ++
    List.replicate (index + 1 - (start + items.length)) absent
  list (filled.modify index change)

/--
A name in lower case. The names of all settings are ASCII, and of the other characters only the
Kelvin sign has an ASCII letter for its lower case.
-/
def foldName (name : String) : String :=
  name.map fun character => if character = '\u212a' then 'k' else character.toLower

mutual

/-- Puts a value under a name; a table goes entry by entry into what is there already. -/
def override (setting : Setting) (name : String) : Setting → Setting
  | table entries =>
    let name := foldName name
    setting.put name (overrideAll ((setting.entry? name).getD (table [])) entries)
  | value => setting.put (foldName name) value

/-- Puts several values under their names, one after the other. -/
def overrideAll (setting : Setting) : List (String × Setting) → Setting
  | [] => setting
  | (name, value) :: rest => overrideAll (override setting name value) rest

end

/-- A step on the way into a tree. -/
inductive PathStep where
  | name (name : String)
  /-- A place in a list, counted from the end if it is below zero. -/
  | place (index : Int)
deriving DecidableEq, Repr

/-- Puts a value at the end of a path that starts with a name. -/
def overrideAt (setting : Setting) (name : String) (value : Setting) : List PathStep → Setting
  | [] => setting.override name value
  | .name next :: rest =>
    setting.put name (overrideAt ((setting.entry? name).getD absent) next value rest)
  | .place index :: rest =>
    setting.put name (overridePlace ((setting.entry? name).getD absent) index value rest)
where
  /-- Puts a value at the end of a path that starts with a place. -/
  overridePlace (setting : Setting) (index : Int) (value : Setting) : List PathStep → Setting
    | [] => setting.changeItem index fun _ => value
    | .name next :: rest =>
      setting.changeItem index fun item => overrideAt item next value rest
    | .place next :: rest =>
      setting.changeItem index fun item => overridePlace item next value rest

/-- Whether a character may stand in a name of a path. -/
def isNameChar (character : Char) : Bool :=
  character.isAlphanum || character == ' ' || character == '_' || character == '-'

/-- Whether a character may stand beside the number of a place. -/
def isPadding (character : Char) : Bool :=
  character == ' ' || character == '\t'

/-- The first number too large for 64 bits with a sign. -/
def signBit : Int :=
  0x8000000000000000

/-- Reads the number of a place up to the closing bracket, and gives back what follows that. -/
def readPlace? (characters : List Char) : Option (Int × List Char) := do
  let (negative, unsigned) :=
    match characters.dropWhile isPadding with
    | '-' :: rest => (true, rest)
    | rest => (false, rest)
  let (digits, after) := unsigned.span Text.isDecimalDigit
  let number : Int := Text.decimalNumber digits
  let place := if negative then -number else number
  guard (digits ≠ [] ∧ -signBit ≤ place ∧ place < signBit)
  match after.dropWhile isPadding with
  | ']' :: rest => return (place, rest)
  | _ => none

/-- The steps of a path after its first name, while there is fuel. -/
def readSteps? : Nat → List Char → Option (List PathStep)
  | _, [] => some []
  | 0, _ => none
  | fuel + 1, '.' :: rest => do
    let (name, after) := rest.span isNameChar
    guard (name ≠ [])
    return .name (foldName (String.ofList name)) :: (← readSteps? fuel after)
  | fuel + 1, '[' :: rest => do
    let (place, after) ← readPlace? rest
    return .place place :: (← readSteps? fuel after)
  | _, _ => none

/--
The first name and the further steps of a path, names in lower case; a key that is no path is a name
as a whole.
-/
def readPath (key : String) : String × List PathStep :=
  let characters := key.toList
  let (name, rest) := characters.span isNameChar
  match readSteps? rest.length rest with
  | some steps => if name = [] then (key, []) else (foldName (String.ofList name), steps)
  | none => (key, [])

/-- Puts the values of a source in place, each under the path that its key writes. -/
def overrideWith (setting : Setting) (source : List (String × Setting)) : Setting :=
  source.foldl
    (fun setting (key, value) =>
      let (name, steps) := readPath key
      setting.overrideAt name value steps)
    setting

end Setting

end Reconciler
