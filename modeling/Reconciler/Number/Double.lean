import Reconciler.Text.Digits

/-!
# Numbers of double precision

A `Double` is a number that fits the binary format of 64 bits. Decimal numbers round to the nearest
double, as do products and quotients, and a double is written with the fewest digits that no other
double is nearer to.
-/

namespace Reconciler

open Text

/-- A number of double precision. -/
inductive Double where
  /-- A mantissa times a power of two, with a sign. -/
  | finite (negative : Bool) (mantissa : Nat) (exponent : Int)
  | infinite (negative : Bool)
  | notANumber
deriving DecidableEq, Inhabited, Repr

namespace Double

/-- The number of bits of a mantissa. -/
def precision : Nat :=
  53

/-- The least exponent of a double. -/
def leastExponent : Int :=
  -1074

/-- The greatest exponent of a double. -/
def greatestExponent : Int :=
  971

/-- A power of a base as a quotient. -/
def power (base : Nat) (exponent : Int) : Nat × Nat :=
  (Nat.pow base exponent.toNat, Nat.pow base (-exponent).toNat)

/-- The whole number nearest to a quotient; a half goes to the even neighbour. -/
def nearestEven (numerator denominator : Nat) : Nat :=
  let whole := numerator / denominator
  let rest := numerator % denominator
  if denominator < 2 * rest ∨ denominator = 2 * rest ∧ whole % 2 = 1 then whole + 1 else whole

/-- The whole number nearest to a quotient; a half goes up. -/
def nearestUp (numerator denominator : Nat) : Nat :=
  (2 * numerator + denominator) / (2 * denominator)

/-- The double with a mantissa of up to one bit too many, or an infinite one if there is none. -/
def normalize (negative : Bool) (mantissa : Nat) (exponent : Int) : Double :=
  let (mantissa, exponent) :=
    if mantissa = Nat.pow 2 precision then (Nat.pow 2 (precision - 1), exponent + 1)
    else (mantissa, exponent)
  if greatestExponent < exponent then infinite negative else finite negative mantissa exponent

/-- The double nearest to a positive quotient. -/
def ofQuotient (negative : Bool) (numerator denominator : Nat) : Double :=
  let guess : Int := (numerator.log2 : Int) - denominator.log2 - precision
  let scaled (exponent : Int) : Nat × Nat :=
    let (up, down) := power 2 exponent
    (numerator * down, denominator * up)
  let exponent :=
    if (scaled guess).1 < Nat.pow 2 precision * (scaled guess).2 then guess else guess + 1
  let exponent := max exponent leastExponent
  let (numerator, denominator) := scaled exponent
  normalize negative (nearestEven numerator denominator) exponent

/-- The double nearest to a quotient, which may be zero. -/
def ofRatio (negative : Bool) (numerator denominator : Nat) : Double :=
  if numerator = 0 then finite negative 0 leastExponent
  else ofQuotient negative numerator denominator

/-- The double nearest to a whole number with a sign. -/
def ofMagnitude (negative : Bool) (magnitude : Nat) : Double :=
  ofRatio negative magnitude 1

/-- A number of digits beyond which decimal exponents are out of range. -/
def decimalRange : Int :=
  400

/-- The double nearest to a mantissa times a power of ten. -/
def ofDecimal (negative : Bool) (mantissa : Nat) (exponent : Int) : Double :=
  let magnitude := (Nat.toDigits 10 mantissa).length + exponent
  if mantissa = 0 ∨ magnitude < -decimalRange then finite negative 0 leastExponent
  else if decimalRange < magnitude then infinite negative
  else
    let (up, down) := power 10 exponent
    ofQuotient negative (mantissa * up) down

/-- The double nearest to a power of ten. -/
def tenTo (power : Nat) : Double :=
  ofDecimal false 1 power

/-- The double nearest to the product with the double nearest to a power of ten. -/
def timesTenTo (value : Double) (power : Nat) : Double :=
  match value, tenTo power with
  | finite negative mantissa exponent, finite _ factor shift =>
    let (up, down) := Double.power 2 (exponent + shift)
    ofRatio negative (mantissa * factor * up) down
  | value, _ => value

/-- The double nearest to the quotient by the double nearest to a power of ten. -/
def overTenTo (value : Double) (power : Nat) : Double :=
  match value, tenTo power with
  | finite negative mantissa exponent, finite _ divisor shift =>
    let (up, down) := Double.power 2 (exponent - shift)
    ofRatio negative (mantissa * up) (divisor * down)
  | value, _ => value

/-- Whether a double is infinite. -/
def isInfinite : Double → Bool
  | infinite _ => true
  | _ => false

/-- Whether a double is zero, of either sign. -/
def isZero : Double → Bool
  | finite _ 0 _ => true
  | _ => false

/--
The whole number nearest to a double, a half being rounded away from zero, within a limit; numbers
below zero and what is no number count as zero.
-/
def toNatWithin (limit : Nat) : Double → Nat
  | finite false mantissa exponent =>
    let (up, down) := power 2 exponent
    min limit (nearestUp (mantissa * up) down)
  | infinite false => limit
  | _ => 0

/-- The decimal numbers that round to a double, as the two ends of an interval in quarters. -/
structure Rounding where
  low : Nat
  high : Nat
  closed : Bool

/-- The interval of a double with a positive mantissa, in quarters of its last place. -/
def rounding (mantissa : Nat) (exponent : Int) : Rounding :=
  let atPower := mantissa = Nat.pow 2 (precision - 1) ∧ leastExponent < exponent
  ⟨4 * mantissa - (if atPower then 1 else 2), 4 * mantissa + 2, mantissa % 2 == 0⟩

/-- Whether a quotient, in quarters of the last place, lies in an interval. -/
def Rounding.contains (interval : Rounding) (numerator denominator : Nat) : Bool :=
  if interval.closed then
    interval.low * denominator ≤ numerator && numerator ≤ interval.high * denominator
  else interval.low * denominator < numerator && numerator < interval.high * denominator

/-- The number of decimal digits before the point, negative for zeros right after the point. -/
def digitCount (numerator denominator : Nat) : Int :=
  if denominator ≤ numerator then (Nat.toDigits 10 (numerator / denominator)).length
  else
    let zeros := ((List.range 400).find? fun zeros =>
      denominator ≤ numerator * Nat.pow 10 (zeros + 1)).getD 0
    Int.negOfNat zeros

/--
The decimal number with a number of digits that is nearest to a double with a positive mantissa, the
larger one of two, if it rounds to that double: its digits as a number, and its power of ten.
-/
def decimalOf? (mantissa : Nat) (exponent : Int) (digits : Nat) : Option (Nat × Int) :=
  let (up, down) := power 2 exponent
  let point := digitCount (mantissa * up) down - digits
  let (tenUp, tenDown) := power 10 point
  let numerator := mantissa * up * tenDown
  let denominator := down * tenUp
  let interval := rounding mantissa exponent
  let fits (candidate : Nat) : Bool :=
    interval.contains (4 * candidate * tenUp * down) (up * tenDown)
  let below := numerator / denominator
  let nearest := nearestUp numerator denominator
  ([nearest, below, below + 1].find? fits).map fun candidate =>
    if candidate = Nat.pow 10 digits then (1, point + digits) else (candidate, point)

/-- The fewest digits that round to a double with a positive mantissa, and their power of ten. -/
def shortest (mantissa : Nat) (exponent : Int) : Nat × Int :=
  ((List.range 17).findSome? fun digits => decimalOf? mantissa exponent (digits + 1)).getD (0, 0)

/-- Digits times a power of ten, without an exponent. -/
def positional (digits : List Char) (point : Int) : List Char :=
  if 0 ≤ point then digits ++ List.replicate point.toNat '0'
  else
    let places := (-point).toNat
    let padded := List.replicate (places + 1 - digits.length) '0' ++ digits
    padded.take (padded.length - places) ++ '.' :: padded.drop (padded.length - places)

/-- A double in decimal notation, with the fewest digits and without an exponent. -/
def write : Double → String
  | notANumber => "NaN"
  | infinite negative => if negative then "-inf" else "inf"
  | finite negative mantissa exponent =>
    let digits :=
      if mantissa = 0 then ['0']
      else
        let (digits, point) := shortest mantissa exponent
        positional (Nat.toDigits 10 digits) point
    String.ofList (if negative then '-' :: digits else digits)

/-- The sign at the start of a number, and what follows. -/
def splitSign : List Char → Bool × List Char
  | '-' :: rest => (true, rest)
  | '+' :: rest => (false, rest)
  | characters => (false, characters)

/-- The power of ten that an exponent at the end of a number stands for. -/
def readExponent? : List Char → Option Int
  | [] => some 0
  | mark :: rest =>
    let (negative, digits) := splitSign rest
    if (mark = 'e' ∨ mark = 'E') ∧ digits ≠ [] ∧ digits.all isDecimalDigit then
      some (if negative then -decimalNumber digits else decimalNumber digits)
    else none

/-- Reads an unsigned number with or without point and exponent. -/
def readUnsigned? (negative : Bool) (characters : List Char) : Option Double := do
  let (whole, rest) := characters.span isDecimalDigit
  let (fraction, rest) :=
    match rest with
    | '.' :: after => after.span isDecimalDigit
    | _ => ([], rest)
  guard (whole ≠ [] ∨ fraction ≠ [])
  let exponent ← readExponent? rest
  return ofDecimal negative (decimalNumber (whole ++ fraction)) (exponent - fraction.length)

/-- Reads a number, which may be infinite or none at all. -/
def read? (text : String) : Option Double :=
  let (negative, unsigned) := splitSign text.toList
  match String.ofList (unsigned.map Char.toLower) with
  | "inf" => some (infinite negative)
  | "infinity" => some (infinite negative)
  | "nan" => some notANumber
  | _ => readUnsigned? negative unsigned

end Double

end Reconciler
