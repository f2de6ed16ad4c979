import Reconciler.Json.Basic

/-!
# Values of numbers

What a number in a JSON text is worth. An integer that fits in 64 bits is exact. Any other number is
a double, which is found with a bounded amount of arithmetic: the leading digits that fit in 64 bits
make up a significand, and this is multiplied or divided by a power of ten. Both steps round, so the
outcome may be a neighbour of the double nearest to what the digits say.
-/

namespace Reconciler.Json

open Reconciler.Text

/-- A number as it stands in a text. -/
structure NumberLiteral where
  negative : Bool
  /-- The digits before the point. -/
  whole : List Char
  /-- The digits after the point; none if there is no point. -/
  fraction : List Char
  exponent : Option Int
deriving Repr

/-- Appends digits to a significand as long as it fits in 64 bits, and gives back the others. -/
def appendDigits (significand : Nat) : List Char → Nat × List Char
  | [] => (significand, [])
  | digit :: digits =>
    let longer := significand * 10 + (decimalDigit? digit).getD 0
    if longer < UInt64.size then appendDigits longer digits else (significand, digit :: digits)

/-- The greatest power of ten that a double is multiplied or divided by at once. -/
def greatestPower : Nat :=
  308

/-- A double scaled by a power of ten in steps that round, unless that takes it out of range. -/
def scale? (value : Double) (power : Int) : Option Double :=
  if 0 ≤ power then
    if power.toNat ≤ greatestPower then
      let scaled := value.timesTenTo power.toNat
      if scaled.isInfinite then none else some scaled
    else if value.isZero then some value
    else none
  else if (-power).toNat ≤ greatestPower then some (value.overTenTo (-power).toNat)
  else if value.isZero then some value
  else scale? (value.overTenTo greatestPower) (power + greatestPower)
termination_by (-power).toNat
decreasing_by simp only [greatestPower] at *; omega

namespace NumberLiteral

/-- Whether a number is written without point and exponent. -/
def isWhole (literal : NumberLiteral) : Bool :=
  literal.fraction.isEmpty && literal.exponent.isNone

/-- The leading digits of a number, and the power of ten that they are to be scaled by. -/
def parts (literal : NumberLiteral) : Nat × Int :=
  let (significand, wholeRest) := appendDigits 0 literal.whole
  let (significand, fractionRest) := appendDigits significand literal.fraction
  let places : Int := literal.fraction.length - fractionRest.length
  (significand, literal.exponent.getD 0 + wholeRest.length - places)

/-- The double that a number stands for, if it is in range. -/
def double? (literal : NumberLiteral) : Option Double :=
  let (significand, power) := literal.parts
  scale? (.ofMagnitude literal.negative significand) power

/-- The integer that a number stands for, if it is written as one and fits in 64 bits. -/
def integer? (literal : NumberLiteral) : Option Int :=
  let magnitude := decimalNumber literal.whole
  if !literal.isWhole then none
  else if literal.negative then
    if 0 < magnitude ∧ magnitude ≤ 0x8000000000000000 then some (-(magnitude : Int)) else none
  else if magnitude < UInt64.size then some magnitude
  else none

/-- The value of a number. -/
def value (literal : NumberLiteral) : Json :=
  match literal.integer? with
  | some value => integer value
  | none =>
    match literal.double? with
    | some value => real value
    | none => unkeepable

end NumberLiteral

end Reconciler.Json
