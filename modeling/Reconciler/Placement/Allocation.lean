/-!
# Proportional allocation

The method of the largest remainder: every weight gets the whole part of its proportional share of a
total, and the units left over go, one each, to the weights with the largest remainders, the earlier
one first among equals. Weights that are all zero count as equal.
-/

namespace Reconciler.Allocation

/-- The sum of weights. -/
def sumOf (weights : List Nat) : Nat :=
  weights.foldr Nat.add 0

/-- The weights that count: the given ones, or ones if their sum is zero. -/
def effectiveWeights (weights : List Nat) : List Nat :=
  if sumOf weights = 0 then weights.map fun _ => 1 else weights

/-- The whole part of a proportional share. -/
def wholePart (total sum weight : Nat) : Nat :=
  total * weight / sum

/-- What a proportional share exceeds its whole part by, in units of one part in the sum. -/
def remainder (total sum weight : Nat) : Nat :=
  total * weight % sum

/-- Whether the first of two indexed remainders is served no later than the second. -/
def servedFirst (first second : Nat × Nat) : Bool :=
  second.1 < first.1 || first.1 == second.1 && first.2 ≤ second.2

/-- The indices of remainders, the largest first and the earlier first among equals. -/
def servingOrder (remainders : List Nat) : List Nat :=
  (remainders.zipIdx.mergeSort servedFirst).map Prod.snd

/-- The units that whole parts leave over. -/
def leftover (total : Nat) (weights : List Nat) : Nat :=
  let sum := sumOf weights
  total - sumOf (weights.map (wholePart total sum))

/-- The indices of the weights that get one of the units left over. -/
def favoured (total : Nat) (weights : List Nat) : List Nat :=
  let sum := sumOf weights
  (servingOrder (weights.map (remainder total sum))).take (leftover total weights)

/-- The shares of a total that weights get whose sum is positive. -/
def shares (total : Nat) (weights : List Nat) : List Nat :=
  let sum := sumOf weights
  let favoured := favoured total weights
  weights.zipIdx.map fun (weight, index) =>
    wholePart total sum weight + if index ∈ favoured then 1 else 0

/-- The share of a total that each weight gets. -/
def largestRemainder (total : UInt32) (weights : List UInt32) : List UInt32 :=
  (shares total.toNat (effectiveWeights (weights.map UInt32.toNat))).map UInt32.ofNat

end Reconciler.Allocation
