import Mathlib.Algebra.GroupWithZero.Nat
import Mathlib.Algebra.Order.BigOperators.Group.List
import Mathlib.Algebra.Order.Group.Nat
import Mathlib.Data.List.GetD
import Mathlib.Data.List.Nodup
import Mathlib.Data.List.Permutation
import Reconciler.Placement.Allocation

/-!
# Fair shares

What the method of the largest remainder gives to weights. The remainders add up to as many times
the sum of the weights as there are units left over, and each of them is less than that sum; so
there are at least as many weights with a remainder as units, and only such weights are favoured.
From this follows `apportions_shares`: the shares make up the total, and each of them is the
proportional one, rounded down or up.
-/

namespace Reconciler.Allocation

theorem sumOf_eq_sum (weights : List Nat) : sumOf weights = weights.sum :=
  rfl

/-- An index comes before another by decreasing remainder, and then by increasing index. -/
def ServedBefore (remainders : List Nat) (first second : Nat) : Prop :=
  remainders.getD second 0 < remainders.getD first 0 ∨
    remainders.getD first 0 = remainders.getD second 0 ∧ first < second

instance (remainders : List Nat) (first second : Nat) :
    Decidable (ServedBefore remainders first second) :=
  inferInstanceAs (Decidable (_ ∨ _))

section Order

variable (remainders : List Nat)

theorem servingOrder_perm : (servingOrder remainders).Perm (List.range remainders.length) := by
  have indices : remainders.zipIdx.map Prod.snd = List.range remainders.length := by
    rw [List.zipIdx_map_snd, List.range_eq_range']
  rw [← indices]
  exact (List.mergeSort_perm _ _).map _

theorem nodup_servingOrder : (servingOrder remainders).Nodup :=
  (servingOrder_perm remainders).nodup_iff.mpr List.nodup_range

theorem servingOrder_pairwise : (servingOrder remainders).Pairwise (ServedBefore remainders) := by
  have sorted : (remainders.zipIdx.mergeSort servedFirst).Pairwise
      fun first second => servedFirst first second = true := by
    apply List.pairwise_mergeSort
    · intro first second third
      simp only [servedFirst, Bool.or_eq_true, Bool.and_eq_true, decide_eq_true_eq, beq_iff_eq]
      omega
    · intro first second
      simp only [servedFirst, Bool.or_eq_true, Bool.and_eq_true, decide_eq_true_eq, beq_iff_eq]
      omega
  have remainderOf : ∀ pair ∈ remainders.zipIdx.mergeSort servedFirst,
      remainders.getD pair.2 0 = pair.1 := by
    intro pair member
    have found := List.mem_zipIdx_iff_getElem?.mp (List.mem_mergeSort.mp member)
    rw [List.getD_eq_getElem?_getD, found]
    rfl
  have distinct := List.pairwise_map.mp (nodup_servingOrder remainders)
  refine List.pairwise_map.mpr ((sorted.and distinct).imp_of_mem ?_)
  intro first second firstMember secondMember ordered
  rw [ServedBefore, remainderOf first firstMember, remainderOf second secondMember]
  have noLater := ordered.1
  have different := ordered.2
  simp only [servedFirst, Bool.or_eq_true, Bool.and_eq_true, decide_eq_true_eq,
    beq_iff_eq] at noLater
  omega

theorem countP_servingOrder :
    (servingOrder remainders).countP (fun index => remainders.getD index 0 ≠ 0) =
      remainders.countP (· ≠ 0) := by
  have listed : (List.range remainders.length).map (remainders.getD · 0) = remainders := by
    apply List.ext_getElem
    · simp
    · intro index _ inside
      rw [List.getElem_map, List.getElem_range, List.getD_eq_getElem _ _ inside]
  rw [(servingOrder_perm remainders).countP_eq]
  conv_rhs => rw [← listed, List.countP_map]
  rfl

/-- If no more are served than there are numbers other than zero, none of those served is zero. -/
theorem getD_pos_of_mem_take {remainders : List Nat} {count : Nat}
    (enough : count ≤ remainders.countP (· ≠ 0)) {index : Nat}
    (served : index ∈ (servingOrder remainders).take count) : 0 < remainders.getD index 0 := by
  by_contra notPositive
  have zero : remainders.getD index 0 = 0 := Nat.eq_zero_of_not_pos notPositive
  let hasRest (other : Nat) : Bool := remainders.getD other 0 ≠ 0
  have split := List.take_append_drop count (servingOrder remainders)
  -- Whoever is served after a zero is a zero.
  have noneLater : ((servingOrder remainders).drop count).countP hasRest = 0 := by
    apply List.countP_eq_zero.mpr
    intro later laterMember hasRestLater
    have ordered := servingOrder_pairwise remainders
    rw [← split] at ordered
    have before := (List.pairwise_append.mp ordered).2.2 index served later laterMember
    have nonzero : remainders.getD later 0 ≠ 0 := of_decide_eq_true hasRestLater
    simp only [ServedBefore, zero] at before
    omega
  have fewer : ((servingOrder remainders).take count).countP hasRest < count := by
    have notAll : ((servingOrder remainders).take count).countP hasRest ≠
        ((servingOrder remainders).take count).length :=
      fun all => of_decide_eq_true (List.countP_eq_length.mp all index served) zero
    exact (lt_of_le_of_ne List.countP_le_length notAll).trans_le (List.length_take_le _ _)
  have sides : ((servingOrder remainders).take count).countP hasRest +
      ((servingOrder remainders).drop count).countP hasRest = remainders.countP (· ≠ 0) := by
    rw [← List.countP_append, split]
    exact countP_servingOrder remainders
  omega

end Order

section Remainders

variable (total sum : Nat)

/-- What weights get in whole parts and what remains make up what they are to get. -/
theorem sum_wholePart_mul_add (weights : List Nat) :
    (weights.map (wholePart total sum)).sum * sum + (weights.map (remainder total sum)).sum =
      total * weights.sum := by
  induction weights with
  | nil => simp
  | cons weight rest ih =>
      have split : wholePart total sum weight * sum + remainder total sum weight =
          total * weight := Nat.div_add_mod' _ _
      simp only [List.map_cons, List.sum_cons, Nat.add_mul, Nat.mul_add]
      omega

/-- Numbers up to a bound add up to no more than the bound for each of them that is not zero. -/
theorem sum_le_countP_mul {bound : Nat} {numbers : List Nat}
    (bounded : ∀ number ∈ numbers, number ≤ bound) :
    numbers.sum ≤ numbers.countP (· ≠ 0) * bound := by
  induction numbers with
  | nil => simp
  | cons number rest ih =>
      rcases List.forall_mem_cons.mp bounded with ⟨headBounded, restBounded⟩
      have inRest := ih restBounded
      rw [List.sum_cons, List.countP_cons, Nat.add_mul]
      by_cases zero : number = 0
      · rw [zero, Nat.zero_add]
        exact inRest.trans (Nat.le_add_right _ _)
      · rw [if_pos (decide_eq_true zero), Nat.one_mul]
        omega

end Remainders

section Shares

variable {total : Nat} {weights : List Nat}

/-- The units left over are what the remainders come to. -/
theorem leftover_mul_sum :
    leftover total weights * weights.sum =
      (weights.map (remainder total weights.sum)).sum := by
  have parts := sum_wholePart_mul_add total weights.sum weights
  rw [leftover, sumOf_eq_sum, sumOf_eq_sum, Nat.sub_mul]
  omega

theorem sum_wholePart_le (positive : 0 < weights.sum) :
    (weights.map (wholePart total weights.sum)).sum ≤ total := by
  have parts := sum_wholePart_mul_add total weights.sum weights
  apply Nat.le_of_mul_le_mul_right _ positive
  omega

theorem leftover_le_countP (positive : 0 < weights.sum) :
    leftover total weights ≤
      (weights.map (remainder total weights.sum)).countP (· ≠ 0) := by
  apply Nat.le_of_mul_le_mul_right _ positive
  rw [leftover_mul_sum]
  apply sum_le_countP_mul
  intro rest member
  rcases List.mem_map.mp member with ⟨weight, _, rfl⟩
  exact (Nat.mod_lt _ positive).le

theorem favoured_eq :
    favoured total weights =
      (servingOrder (weights.map (remainder total weights.sum))).take (leftover total weights) :=
  rfl

theorem nodup_favoured : (favoured total weights).Nodup :=
  (nodup_servingOrder _).sublist (List.take_sublist _ _)

theorem lt_of_mem_favoured {index : Nat} (member : index ∈ favoured total weights) :
    index < weights.length := by
  have inOrder := (servingOrder_perm _).mem_iff.mp (List.mem_of_mem_take member)
  rwa [List.mem_range, List.length_map] at inOrder

/-- Each unit left over goes to a weight. -/
theorem length_favoured (positive : 0 < weights.sum) :
    (favoured total weights).length = leftover total weights := by
  have enough : leftover total weights ≤ weights.length := by
    have countLe : (weights.map (remainder total weights.sum)).countP (· ≠ 0) ≤
        (weights.map (remainder total weights.sum)).length := List.countP_le_length
    rw [List.length_map] at countLe
    exact (leftover_le_countP positive).trans countLe
  rw [favoured, List.length_take, (servingOrder_perm _).length_eq, List.length_range,
    List.length_map]
  exact Nat.min_eq_left enough

/-- Only a weight whose proportional share is not whole is favoured. -/
theorem not_dvd_of_mem_favoured (positive : 0 < weights.sum) {index weight : Nat}
    (found : weights[index]? = some weight) (member : index ∈ favoured total weights) :
    ¬weights.sum ∣ total * weight := by
  intro whole
  have hasRest := getD_pos_of_mem_take (leftover_le_countP positive) member
  rw [List.getD_eq_getElem?_getD, List.getElem?_map, found] at hasRest
  exact hasRest.ne' (Nat.mod_eq_zero_of_dvd whole)

@[simp]
theorem length_shares : (shares total weights).length = weights.length := by
  simp [shares]

theorem getElem?_shares (index : Nat) :
    (shares total weights)[index]? = weights[index]?.map fun weight =>
      wholePart total weights.sum weight + if index ∈ favoured total weights then 1 else 0 := by
  rw [shares, List.getElem?_map, List.getElem?_zipIdx, Option.map_map, Nat.zero_add]
  rfl

/-- One for each favoured weight adds up to the units left over. -/
theorem sum_units (positive : 0 < weights.sum) :
    ((List.range weights.length).map fun index =>
      if index ∈ favoured total weights then 1 else 0).sum = leftover total weights := by
  have counted : ∀ indices : List Nat, (indices.map fun index =>
      if index ∈ favoured total weights then 1 else 0).sum =
        indices.countP (· ∈ favoured total weights) := by
    intro indices
    induction indices with
    | nil => rfl
    | cons index rest ih =>
        rw [List.map_cons, List.sum_cons, List.countP_cons, ih]
        simp only [decide_eq_true_eq]
        omega
  have chosen : ((List.range weights.length).filter (· ∈ favoured total weights)).Perm
      (favoured total weights) := by
    apply (List.perm_ext_iff_of_nodup (List.nodup_range.filter _) nodup_favoured).mpr
    intro index
    rw [List.mem_filter, List.mem_range, decide_eq_true_iff]
    exact and_iff_right_of_imp lt_of_mem_favoured
  rw [counted, List.countP_eq_length_filter, chosen.length_eq, length_favoured positive]

/-- The shares make up the total. -/
theorem sum_shares (positive : 0 < weights.sum) : (shares total weights).sum = total := by
  have wholeParts : (weights.zipIdx.map fun pair => wholePart total weights.sum pair.1) =
      weights.map (wholePart total weights.sum) := by
    generalize weights.sum = sum
    conv_rhs => rw [← List.zipIdx_map_fst 0 weights, List.map_map]
    rfl
  have units : (weights.zipIdx.map fun pair =>
      if pair.2 ∈ favoured total weights then 1 else 0).sum = leftover total weights := by
    rw [← sum_units positive, List.range_eq_range', ← List.zipIdx_map_snd 0 weights, List.map_map]
    rfl
  have parts : (shares total weights).sum =
      (weights.map (wholePart total weights.sum)).sum + leftover total weights := by
    rw [← wholeParts, ← units, ← List.sum_map_add]
    rfl
  have most : (weights.map (wholePart total weights.sum)).sum ≤ total := sum_wholePart_le positive
  rw [parts, leftover, sumOf_eq_sum, sumOf_eq_sum]
  exact Nat.add_sub_cancel' most

/--
What the method of the largest remainder promises: the shares make up the total, each of them is the
proportional share rounded down, or up if it is not whole, and it is rounded up for those first in
the order of decreasing remainder, and then of increasing index, as many as there are units that
rounding down leaves over.
-/
structure Apportions (total : Nat) (weights shares : List Nat) : Prop where
  length_eq : shares.length = weights.length
  sum_eq : shares.sum = total
  le_total : ∀ share ∈ shares, share ≤ total
  proportional : ∀ (index weight share : Nat), weights[index]? = some weight →
    shares[index]? = some share →
      share = total * weight / weights.sum ∨
        share = total * weight / weights.sum + 1 ∧ ¬weights.sum ∣ total * weight
  served : ∃ order : List Nat, order.Perm (List.range weights.length) ∧
    order.Pairwise (ServedBefore (weights.map fun weight => total * weight % weights.sum)) ∧
    ∀ (index weight share : Nat), weights[index]? = some weight →
      shares[index]? = some share →
        (share = total * weight / weights.sum + 1 ↔
          index ∈ order.take
            (total - (weights.map fun weight => total * weight / weights.sum).sum))

theorem Apportions.share_eq_zero {shares : List Nat} (fair : Apportions total weights shares)
    {index : Nat} (weightless : weights[index]? = some 0) : shares[index]? = some 0 := by
  have inside : index < shares.length := by
    rw [fair.length_eq]
    exact (List.getElem?_eq_some_iff.mp weightless).1
  have found : shares[index]? = some shares[index] := List.getElem?_eq_getElem inside
  rcases fair.proportional index 0 _ weightless found with whole | ⟨_, notWhole⟩
  · rw [found, whole, Nat.mul_zero, Nat.zero_div]
  · exact absurd (Dvd.intro 0 rfl) notWhole

theorem apportions_shares (positive : 0 < weights.sum) :
    Apportions total weights (shares total weights) where
  length_eq := length_shares
  sum_eq := sum_shares positive
  le_total share member := (List.le_sum_of_mem member).trans_eq (sum_shares positive)
  proportional index weight share found shared := by
    rw [getElem?_shares, found, Option.map_some, Option.some.injEq] at shared
    by_cases member : index ∈ favoured total weights
    · right
      rw [if_pos member] at shared
      exact ⟨shared.symm, not_dvd_of_mem_favoured positive found member⟩
    · left
      rw [if_neg member] at shared
      exact shared.symm
  served := by
    refine ⟨servingOrder (weights.map (remainder total weights.sum)), ?_, ?_, ?_⟩
    · have perm := servingOrder_perm (weights.map (remainder total weights.sum))
      rwa [List.length_map] at perm
    · exact servingOrder_pairwise _
    · intro index weight share found shared
      rw [getElem?_shares, found, Option.map_some, Option.some.injEq] at shared
      rw [← shared, wholePart, Nat.add_left_cancel_iff, ite_eq_left_iff]
      simp only [Nat.zero_ne_one, imp_false, not_not]
      rfl

end Shares

section Counted

variable {weights : List UInt32}

theorem sum_effectiveWeights_pos {weights : List Nat} (nonempty : weights ≠ []) :
    0 < (effectiveWeights weights).sum := by
  rw [effectiveWeights]
  split
  · rw [List.map_const', List.sum_replicate_nat, Nat.mul_one]
    exact List.length_pos_iff.mpr nonempty
  · rename_i positive
    exact Nat.pos_of_ne_zero positive

theorem length_effectiveWeights (weights : List Nat) :
    (effectiveWeights weights).length = weights.length := by
  rw [effectiveWeights]
  split
  · exact List.length_map _
  · rfl

theorem length_largestRemainder (total : UInt32) (weights : List UInt32) :
    (largestRemainder total weights).length = weights.length := by
  rw [largestRemainder, List.length_map, length_shares, length_effectiveWeights, List.length_map]

theorem lt_size_of_mem_effectiveWeights {weight : Nat}
    (member : weight ∈ effectiveWeights (weights.map UInt32.toNat)) : weight < UInt32.size := by
  rw [effectiveWeights] at member
  split at member
  · rcases List.mem_map.mp member with ⟨_, _, rfl⟩
    decide
  · rcases List.mem_map.mp member with ⟨given, _, rfl⟩
    exact UInt32.toNat_lt given

/-- The shares of a number that fits in half a word fit there, too. -/
theorem apportions_largestRemainder (total : UInt32) (nonempty : weights ≠ []) :
    Apportions total.toNat (effectiveWeights (weights.map UInt32.toNat))
      ((largestRemainder total weights).map UInt32.toNat) := by
  have fair : Apportions total.toNat (effectiveWeights (weights.map UInt32.toNat))
      (shares total.toNat (effectiveWeights (weights.map UInt32.toNat))) :=
    apportions_shares (sum_effectiveWeights_pos (mt List.map_eq_nil_iff.mp nonempty))
  have same : (largestRemainder total weights).map UInt32.toNat =
      shares total.toNat (effectiveWeights (weights.map UInt32.toNat)) := by
    rw [largestRemainder, List.map_map]
    refine (List.map_congr_left fun share member => ?_).trans (List.map_id _)
    exact UInt32.toNat_ofNat_of_lt' ((fair.le_total share member).trans_lt (UInt32.toNat_lt total))
  exact same ▸ fair

end Counted

end Reconciler.Allocation
