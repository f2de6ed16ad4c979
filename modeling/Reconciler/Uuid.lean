import Reconciler.Text.Digits

/-!
# Universally unique identifiers

A `Uuid` is a number of 128 bits, written as 32 hexadecimal digits in five groups.
-/

namespace Reconciler

open Reconciler.Text

/-- An identifier of 128 bits, as a number. -/
structure Uuid where
  number : Nat
deriving DecidableEq, Inhabited, Repr

namespace Uuid

/-- The sizes of the groups of digits, which hyphens keep apart. -/
def groups : List Nat :=
  [8, 4, 4, 4, 12]

/-- Cuts digits into groups of given sizes. -/
def splitGroups : List Nat → List Char → List (List Char)
  | [], _ => []
  | size :: sizes, digits => digits.take size :: splitGroups sizes (digits.drop size)

/-- The text of an identifier, in lower case. -/
def write (uuid : Uuid) : String :=
  let digits := paddedDigits 16 32 uuid.number
  "-".intercalate ((splitGroups groups digits).map String.ofList)

/-- Reads 32 hexadecimal digits. -/
def ofDigits? (digits : List Char) : Option Uuid := do
  guard (digits.length = 32)
  let values ← digits.mapM hexDigit?
  return ⟨numberOfDigits 16 values⟩

/-- Removes the hyphens between groups of digits, if they stand where they have to. -/
def joinGroups? : List Nat → List Char → Option (List Char)
  | [], _ => none
  | [size], characters => if characters.length = size then some characters else none
  | size :: sizes, characters => do
    let group := characters.take size
    let rest := characters.drop size
    guard (group.length = size ∧ rest.head? = some '-')
    return group ++ (← joinGroups? sizes rest.tail)

/-- Reads groups of digits with hyphens between them. -/
def ofGroups? (characters : List Char) : Option Uuid :=
  (joinGroups? groups characters).bind ofDigits?

/-- The text that may stand before the groups of digits. -/
def urn : List Char :=
  "urn:uuid:".toList

/--
Reads an identifier: bare digits, groups of digits, groups in braces, or groups after `urn:uuid:`.
-/
def read? (text : String) : Option Uuid :=
  let characters := text.toList
  if characters.length = 32 then ofDigits? characters
  else if characters.length = 38 ∧ characters.head? = some '\x7b' ∧
      characters.getLast? = some '\x7d' then
    ofGroups? characters.tail.dropLast
  else if urn.isPrefixOf characters then ofGroups? (characters.drop urn.length)
  else ofGroups? characters

end Uuid

end Reconciler
