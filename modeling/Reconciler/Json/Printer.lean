import Reconciler.Json.Basic
import Reconciler.Text.Digits

/-!
# Writing JSON

JSON texts without white space. Quotes, backslashes and control characters are escaped, all other
characters stand for themselves.
-/

namespace Reconciler.Json

open Reconciler.Text

/-- The characters that stand for a character in a string. -/
def escapeChar (character : Char) : List Char :=
  match character with
  | '"' => ['\\', '"']
  | '\\' => ['\\', '\\']
  | '\n' => ['\\', 'n']
  | '\r' => ['\\', 'r']
  | '\t' => ['\\', 't']
  | other =>
    if other.toNat < 0x20 then ['\\', 'u'] ++ paddedDigits 16 4 other.toNat else [other]

/-- A string between quotes. -/
def quote (text : String) : String :=
  "\"" ++ String.ofList (text.toList.flatMap escapeChar) ++ "\""

mutual

/-- Writes a value after what is written already. -/
def printAfter (written : String) : Json → String
  | null => written ++ "null"
  | bool value => written ++ (if value then "true" else "false")
  | integer value => written ++ toString value
  | real value => written ++ value.write
  | string text => written ++ quote text
  | array items => printItems (written ++ "[") true items ++ "]"
  | object members => printMembers (written ++ "\x7b") true members ++ "\x7d"
  | unkeepable => written ++ "null"

/-- Writes the items of an array, with commas between them. -/
def printItems (written : String) (first : Bool) : List Json → String
  | [] => written
  | item :: items =>
    printItems (printAfter (if first then written else written ++ ",") item) false items

/-- Writes the members of an object, with commas between them. -/
def printMembers (written : String) (first : Bool) : List (String × Json) → String
  | [] => written
  | (name, value) :: members =>
    let opened := (if first then written else written ++ ",") ++ quote name ++ ":"
    printMembers (printAfter opened value) false members

end

/-- The text of a value. -/
def print (value : Json) : String :=
  printAfter "" value

end Reconciler.Json
