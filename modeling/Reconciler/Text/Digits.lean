/-!
# Digits

Unsigned numbers in decimal and hexadecimal notation, and numbers padded to a width.
-/

namespace Reconciler.Text

/-- The value of a decimal digit. -/
def decimalDigit? (character : Char) : Option Nat :=
  if '0' ≤ character ∧ character ≤ '9' then some (character.toNat - '0'.toNat) else none

/-- Whether a character is a decimal digit. -/
def isDecimalDigit (character : Char) : Bool :=
  (decimalDigit? character).isSome

/-- The value of a hexadecimal digit of either case. -/
def hexDigit? (character : Char) : Option Nat :=
  if '0' ≤ character ∧ character ≤ '9' then some (character.toNat - '0'.toNat)
  else if 'a' ≤ character ∧ character ≤ 'f' then some (character.toNat - 'a'.toNat + 10)
  else if 'A' ≤ character ∧ character ≤ 'F' then some (character.toNat - 'A'.toNat + 10)
  else none

/-- The number that digits of a base write, most significant first. -/
def numberOfDigits (base : Nat) (digits : List Nat) : Nat :=
  digits.foldl (fun number digit => number * base + digit) 0

/-- The number that decimal digits write; other characters count as zero. -/
def decimalNumber (digits : List Char) : Nat :=
  numberOfDigits 10 (digits.map fun digit => (decimalDigit? digit).getD 0)

/-- The leading decimal digits of a text, no more than a limit of them, and what follows. -/
def splitDigits (limit : Nat) (characters : List Char) : List Char × List Char :=
  let digits := (characters.take limit).takeWhile isDecimalDigit
  (digits, characters.drop digits.length)

/-- The digits of a number in a base up to sixteen, in lower case and padded with zeros. -/
def paddedDigits (base width number : Nat) : List Char :=
  let digits := Nat.toDigits base number
  List.replicate (width - digits.length) '0' ++ digits

/-- A number in decimal notation, padded with zeros to a width. -/
def padded (width number : Nat) : String :=
  String.ofList (paddedDigits 10 width number)

end Reconciler.Text
