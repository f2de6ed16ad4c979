import Reconciler.Proofs.Placement.Shares

/-!
# Fair shares in machine words

The method of the largest remainder step by step, in words of 64 bits. A step whose result is no
word fails, as does a division by zero, and with it the whole computation. For weights of half a
word, fewer than half a word can count, no step fails: `largestRemainder_apportions` says so, and
that the outcome is fair.
-/

namespace Reconciler.Allocation

namespace Words

/-- The sum of two words, if it is a word. -/
def add? (first second : UInt64) : Option UInt64 :=
  if first.toNat + second.toNat < UInt64.size then some (first + second) else none

/-- The product of two words, if it is a word. -/
def mul? (first second : UInt64) : Option UInt64 :=
  if first.toNat * second.toNat < UInt64.size then some (first * second) else none

/-- What a word exceeds another by, if it does not fall short of it. -/
def sub? (first second : UInt64) : Option UInt64 :=
  if second ≤ first then some (first - second) else none

/-- The half of a word that holds its number, if one half is enough. -/
def half? (word : UInt64) : Option UInt32 :=
  if word.toNat < UInt32.size then some word.toUInt32 else none

/-- The sum of words, added up one after the other. -/
def sum? (words : List UInt64) : Option UInt64 :=
  words.foldlM add? 0

/-- The weights that count, and their sum. -/
def counted? (weights : List UInt32) : Option (List UInt64 × UInt64) := do
  let words := weights.map UInt32.toUInt64
  let sum ← sum? words
  return if sum = 0 then (words.map fun _ => 1, words.length.toUInt64) else (words, sum)

/-- Gives units to the shares at some indices, one each and in turn, until no unit is left. -/
def handOut? : List Nat → UInt64 → List UInt64 → Option (List UInt64)
  | [], _, shares => some shares
  | index :: indices, units, shares =>
    if units = 0 then some shares
    else do
      let share ← add? (← shares[index]?) 1
      handOut? indices (← sub? units 1) (shares.set index share)

/-- The shares of a total for weights with a sum. -/
def shares? (total sum : UInt64) (weights : List UInt64) : Option (List UInt64) :=
  if sum = 0 then none
  else do
    let products ← weights.mapM (mul? total)
    let wholeParts := products.map (· / sum)
    let units ← sub? total (← sum? wholeParts)
    handOut? (servingOrder (products.map fun product => (product % sum).toNat)) units wholeParts

/-- The share of a total that each weight gets. -/
def largestRemainder? (total : UInt32) (weights : List UInt32) : Option (List UInt32) := do
  let (words, sum) ← counted? weights
  let shares ← shares? total.toUInt64 sum words
  shares.mapM half?

theorem halves_lt : UInt32.size + 1 < UInt64.size := by
  decide

section Steps

variable (first second : UInt64)

theorem add?_eq_some (fits : first.toNat + second.toNat < UInt64.size) :
    add? first second = some (first + second) ∧
      (first + second).toNat = first.toNat + second.toNat :=
  ⟨if_pos fits, (UInt64.toNat_add _ _).trans (Nat.mod_eq_of_lt fits)⟩

theorem mul?_eq_some (fits : first.toNat * second.toNat < UInt64.size) :
    mul? first second = some (first * second) ∧
      (first * second).toNat = first.toNat * second.toNat :=
  ⟨if_pos fits, (UInt64.toNat_mul _ _).trans (Nat.mod_eq_of_lt fits)⟩

theorem sub?_eq_some (enough : second.toNat ≤ first.toNat) :
    sub? first second = some (first - second) ∧
      (first - second).toNat = first.toNat - second.toNat :=
  ⟨if_pos enough, UInt64.toNat_sub_of_le _ _ enough⟩

theorem half?_eq_some {word : UInt64} (fits : word.toNat < UInt32.size) :
    half? word = some (UInt32.ofNat word.toNat) := by
  rw [half?, if_pos fits]
  rfl

end Steps

/-- Steps that do not fail on any member of a list do not fail on the list. -/
theorem mapM_eq_some_map {α β : Type} {step : α → Option β} {result : α → β} {list : List α}
    (succeeds : ∀ member ∈ list, step member = some (result member)) :
    list.mapM step = some (list.map result) := by
  induction list with
  | nil => rfl
  | cons head rest ih =>
      rcases List.forall_mem_cons.mp succeeds with ⟨headSucceeds, restSucceeds⟩
      rw [List.mapM_cons, headSucceeds, ih restSucceeds]
      rfl

theorem sum?_eq_some (words : List UInt64)
    (fits : (words.map UInt64.toNat).sum < UInt64.size) :
    ∃ sum, sum? words = some sum ∧ sum.toNat = (words.map UInt64.toNat).sum := by
  have addUp : ∀ start : UInt64, start.toNat + (words.map UInt64.toNat).sum < UInt64.size →
      ∃ sum, words.foldlM add? start = some sum ∧
        sum.toNat = start.toNat + (words.map UInt64.toNat).sum := by
    clear fits
    induction words with
    | nil => exact fun start _ => ⟨start, rfl, rfl⟩
    | cons word rest ih =>
        intro start fits
        rw [List.map_cons, List.sum_cons] at fits ⊢
        rcases add?_eq_some start word (by omega) with ⟨added, value⟩
        rcases ih (start + word) (by omega) with ⟨sum, summed, sumValue⟩
        refine ⟨sum, ?_, by omega⟩
        rw [List.foldlM_cons, added]
        exact summed
  rcases addUp 0 (by simpa using fits) with ⟨sum, summed, value⟩
  exact ⟨sum, summed, by simpa using value⟩

/-- Units go to the first of the indices, one to each. -/
theorem handOut?_eq_some {indices : List Nat} (nodup : indices.Nodup) (units : UInt64)
    {shares : List UInt64}
    (small : ∀ index ∈ indices, ∃ share, shares[index]? = some share ∧
      share.toNat < UInt32.size) :
    ∃ handed, handOut? indices units shares = some handed ∧
      ∀ index, handed[index]?.map UInt64.toNat = shares[index]?.map fun share =>
        share.toNat + if index ∈ indices.take units.toNat then 1 else 0 := by
  induction indices generalizing units shares with
  | nil => exact ⟨shares, rfl, fun index => by simp⟩
  | cons first rest ih =>
      rcases List.nodup_cons.mp nodup with ⟨firstOnce, restNodup⟩
      rcases List.forall_mem_cons.mp small with ⟨⟨share, found, bound⟩, restSmall⟩
      rw [handOut?]
      by_cases none : units = 0
      · rw [if_pos none, none]
        exact ⟨shares, rfl, fun index => by simp⟩
      · have positive : 0 < units.toNat := Nat.pos_of_ne_zero fun zero =>
          none (UInt64.toNat_inj.mp zero)
        have fits : share.toNat + 1 < UInt64.size :=
          (Nat.add_lt_add_right bound 1).trans halves_lt
        rcases add?_eq_some share 1 fits with ⟨raised, raisedValue⟩
        rcases sub?_eq_some units 1 positive with ⟨lowered, loweredValue⟩
        have others : ∀ index ∈ rest, ∃ other, (shares.set first (share + 1))[index]? = some other ∧
            other.toNat < UInt32.size := by
          intro index member
          have different : first ≠ index := fun same => firstOnce (same ▸ member)
          rw [List.getElem?_set_ne different]
          exact restSmall index member
        rcases ih restNodup (units - 1) others with ⟨handed, outcome, values⟩
        refine ⟨handed, ?_, ?_⟩
        · rw [if_neg none, found]
          simp only [Option.bind_eq_bind, Option.bind_some, raised, lowered]
          exact outcome
        · intro index
          obtain ⟨left, unitsLeft⟩ : ∃ left, units.toNat = left + 1 :=
            Nat.exists_eq_add_one.mpr positive
          have leftValue : (units - 1).toNat = left := by
            rw [loweredValue, UInt64.toNat_one]
            omega
          rw [values, unitsLeft, List.take_succ_cons, leftValue]
          by_cases same : index = first
          · have notAgain : index ∉ rest.take left :=
              fun again => firstOnce (same ▸ List.mem_of_mem_take again)
            rw [same] at notAgain ⊢
            have inside := (List.getElem?_eq_some_iff.mp found).1
            rw [List.getElem?_set_self inside, found]
            simp [notAgain, raisedValue]
          · rw [List.getElem?_set_ne (Ne.symm same)]
            simp [same]

section Products

variable {total : UInt64} {weights : List UInt64} (totalFits : total.toNat < UInt32.size)
  (weightsFit : ∀ weight ∈ weights, weight.toNat < UInt32.size)

include totalFits weightsFit

theorem mul?_weight {weight : UInt64} (member : weight ∈ weights) :
    mul? total weight = some (total * weight) ∧
      (total * weight).toNat = total.toNat * weight.toNat :=
  mul?_eq_some _ _ (Nat.mul_lt_mul'' totalFits (weightsFit weight member))

theorem toNat_wholeParts (sum : UInt64) :
    ((weights.map (total * ·)).map (· / sum)).map UInt64.toNat =
      (weights.map UInt64.toNat).map (wholePart total.toNat sum.toNat) := by
  simp only [List.map_map]
  apply List.map_congr_left
  intro weight member
  simp only [Function.comp_apply, UInt64.toNat_div, (mul?_weight totalFits weightsFit member).2]
  rfl

theorem toNat_remainders (sum : UInt64) :
    (weights.map (total * ·)).map (fun product => (product % sum).toNat) =
      (weights.map UInt64.toNat).map (remainder total.toNat sum.toNat) := by
  simp only [List.map_map]
  apply List.map_congr_left
  intro weight member
  simp only [Function.comp_apply, UInt64.toNat_mod, (mul?_weight totalFits weightsFit member).2]
  rfl

end Products

/-- For weights with a sum, none of the steps that lead to their shares fails. -/
theorem shares?_eq_some {total sum : UInt64} {weights : List UInt64}
    (totalFits : total.toNat < UInt32.size)
    (weightsFit : ∀ weight ∈ weights, weight.toNat < UInt32.size)
    (isSum : sum.toNat = (weights.map UInt64.toNat).sum) (positive : 0 < sum.toNat) :
    ∃ shares, shares? total sum weights = some shares ∧
      shares.map UInt64.toNat = Allocation.shares total.toNat (weights.map UInt64.toNat) := by
  have products : weights.mapM (mul? total) = some (weights.map (total * ·)) :=
    mapM_eq_some_map fun weight member => (mul?_weight totalFits weightsFit member).1
  let wholeParts := (weights.map (total * ·)).map (· / sum)
  have wholePartsValue : wholeParts.map UInt64.toNat =
      (weights.map UInt64.toNat).map (wholePart total.toNat sum.toNat) :=
    toNat_wholeParts totalFits weightsFit sum
  have remaindersValue := toNat_remainders totalFits weightsFit sum
  have most : (wholeParts.map UInt64.toNat).sum ≤ total.toNat := by
    rw [wholePartsValue, isSum]
    exact sum_wholePart_le (isSum ▸ positive)
  rcases sum?_eq_some wholeParts (by have := halves_lt; omega) with
    ⟨given, givenSum, givenValue⟩
  rcases sub?_eq_some total given (by omega) with ⟨units, unitsValue⟩
  have small : ∀ index ∈ servingOrder ((weights.map UInt64.toNat).map
        (remainder total.toNat sum.toNat)),
      ∃ share, wholeParts[index]? = some share ∧ share.toNat < UInt32.size := by
    intro index member
    have inside : index < wholeParts.length := by
      have inOrder := (servingOrder_perm _).mem_iff.mp member
      simpa [wholeParts] using inOrder
    refine ⟨wholeParts[index], List.getElem?_eq_getElem inside, ?_⟩
    have part : wholeParts[index].toNat ≤ (wholeParts.map UInt64.toNat).sum :=
      List.le_sum_of_mem (List.mem_map_of_mem (List.getElem_mem inside))
    omega
  rcases handOut?_eq_some (nodup_servingOrder _) (total - given) small with
    ⟨handed, outcome, values⟩
  refine ⟨handed, ?_, ?_⟩
  · rw [shares?, if_neg fun none => positive.ne' (congrArg UInt64.toNat none), products]
    simp only [Option.bind_eq_bind, Option.bind_some, remaindersValue]
    rw [givenSum, Option.bind_some, units, Option.bind_some]
    exact outcome
  · apply List.ext_getElem?
    intro index
    have unitsLeft : (total - given).toNat =
        leftover total.toNat (weights.map UInt64.toNat) := by
      rw [unitsValue, givenValue, wholePartsValue, isSum]
      rfl
    have wholePartValue : wholeParts[index]?.map UInt64.toNat =
        (weights.map UInt64.toNat)[index]?.map (wholePart total.toNat sum.toNat) := by
      rw [← List.getElem?_map, wholePartsValue, List.getElem?_map]
    rw [List.getElem?_map, values, getElem?_shares, favoured_eq, ← isSum, unitsLeft]
    have raised := congrArg (Option.map fun part => part + if index ∈
      (servingOrder ((weights.map UInt64.toNat).map (remainder total.toNat sum.toNat))).take
        (leftover total.toNat (weights.map UInt64.toNat)) then 1 else 0) wholePartValue
    rwa [Option.map_map, Option.map_map] at raised

/-- For fewer than half a word can count, the weights add up to a word. -/
theorem counted?_eq_some {weights : List UInt32} (few : weights.length < UInt32.size) :
    ∃ words sum, counted? weights = some (words, sum) ∧
      words.map UInt64.toNat = effectiveWeights (weights.map UInt32.toNat) ∧
      sum.toNat = (effectiveWeights (weights.map UInt32.toNat)).sum := by
  have values : (weights.map UInt32.toUInt64).map UInt64.toNat = weights.map UInt32.toNat := by
    rw [List.map_map]
    exact List.map_congr_left fun weight _ => UInt32.toNat_toUInt64 weight
  have small : ∀ number ∈ weights.map UInt32.toNat, number ≤ UInt32.size := by
    intro number member
    rcases List.mem_map.mp member with ⟨weight, _, rfl⟩
    exact (UInt32.toNat_lt weight).le
  have countLe : (weights.map UInt32.toNat).countP (· ≠ 0) ≤ weights.length :=
    List.countP_le_length.trans_eq (List.length_map _)
  have fits : (weights.map UInt32.toNat).sum < UInt64.size :=
    calc (weights.map UInt32.toNat).sum
      _ ≤ (weights.map UInt32.toNat).countP (· ≠ 0) * UInt32.size := sum_le_countP_mul small
      _ ≤ weights.length * UInt32.size := Nat.mul_le_mul_right _ countLe
      _ < UInt32.size * UInt32.size := Nat.mul_lt_mul_of_pos_right few (Nat.two_pow_pos 32)
  rcases sum?_eq_some (weights.map UInt32.toUInt64) (values ▸ fits) with
    ⟨sum, summed, sumValue⟩
  rw [values] at sumValue
  have decides : sum = 0 ↔ sumOf (weights.map UInt32.toNat) = 0 := by
    rw [sumOf_eq_sum, ← sumValue]
    exact UInt64.toNat_inj.symm
  rw [counted?]
  simp only [summed, Option.bind_eq_bind, Option.bind_some, Option.pure_def, effectiveWeights]
  by_cases weightless : sum = 0
  · rw [if_pos weightless, if_pos (decides.mp weightless)]
    refine ⟨_, _, rfl, ?_, ?_⟩
    · simp
    · rw [List.map_const', List.sum_replicate_nat, Nat.mul_one, List.length_map, List.length_map]
      exact UInt64.toNat_ofNat_of_lt' (few.trans (Nat.lt_of_succ_lt halves_lt))
  · rw [if_neg weightless, if_neg (mt decides.mpr weightless)]
    exact ⟨_, _, rfl, values, sumValue⟩

/-- No step on the way to the shares of a total fails. -/
theorem largestRemainder?_eq_some (total : UInt32) {weights : List UInt32}
    (nonempty : weights ≠ []) (few : weights.length < UInt32.size) :
    largestRemainder? total weights = some (largestRemainder total weights) := by
  rcases counted?_eq_some few with ⟨words, sum, counted, wordsValue, sumValue⟩
  have positive : 0 < sum.toNat := by
    rw [sumValue]
    exact sum_effectiveWeights_pos (mt List.map_eq_nil_iff.mp nonempty)
  have wordsFit : ∀ word ∈ words, word.toNat < UInt32.size := by
    intro word member
    have counts : word.toNat ∈ effectiveWeights (weights.map UInt32.toNat) :=
      wordsValue ▸ List.mem_map_of_mem member
    exact lt_size_of_mem_effectiveWeights counts
  have totalFits : total.toUInt64.toNat < UInt32.size := UInt32.toNat_lt total
  rcases shares?_eq_some totalFits wordsFit (wordsValue ▸ sumValue) positive with
    ⟨shares, shared, values⟩
  rw [UInt32.toNat_toUInt64, wordsValue] at values
  have sharesFit : ∀ share ∈ shares, half? share = some (UInt32.ofNat share.toNat) := by
    intro share member
    apply half?_eq_some
    have fair : Apportions total.toNat (effectiveWeights (weights.map UInt32.toNat)) _ :=
      apportions_shares (sumValue ▸ positive)
    exact (fair.le_total _ (values ▸ List.mem_map_of_mem member)).trans_lt (UInt32.toNat_lt total)
  rw [largestRemainder?, counted]
  simp only [Option.bind_eq_bind, Option.bind_some]
  rw [shared, Option.bind_some, mapM_eq_some_map sharesFit, largestRemainder, ← values,
    List.map_map]
  rfl

end Words

/--
In words of fixed length as in numbers, the shares are those that the method of the largest
remainder promises, and no step on the way to them is out of range.
-/
theorem largestRemainder_apportions (total : UInt32) {weights : List UInt32}
    (nonempty : weights ≠ []) (few : weights.length < UInt32.size) :
    Words.largestRemainder? total weights = some (largestRemainder total weights) ∧
      Apportions total.toNat (effectiveWeights (weights.map UInt32.toNat))
        ((largestRemainder total weights).map UInt32.toNat) ∧
      ((∃ weight ∈ weights, weight ≠ 0) → ∀ index : Nat, weights[index]? = some 0 →
        (largestRemainder total weights)[index]? = some 0) := by
  refine ⟨Words.largestRemainder?_eq_some total nonempty few,
    apportions_largestRemainder total nonempty, ?_⟩
  rintro ⟨weight, member, heavy⟩ index weightless
  have counted : effectiveWeights (weights.map UInt32.toNat) = weights.map UInt32.toNat := by
    apply if_neg
    rw [sumOf_eq_sum]
    intro nothing
    have none := List.sum_eq_zero_iff.mp nothing weight.toNat (List.mem_map_of_mem member)
    exact heavy (UInt32.toNat_inj.mp none)
  have fair := apportions_largestRemainder total nonempty
  rw [counted] at fair
  have noWeight : (weights.map UInt32.toNat)[index]? = some 0 := by
    rw [List.getElem?_map, weightless]
    rfl
  have share := fair.share_eq_zero noWeight
  rw [List.getElem?_map, Option.map_eq_some_iff] at share
  rcases share with ⟨share, found, zero⟩
  rw [found, Option.some.injEq]
  exact UInt32.toNat_inj.mp zero

/-- The largest total is shared out among weights up to the largest, of which two tie. -/
theorem largestRemainder_apportions_of_largest :
    let total : UInt32 := 4294967295
    let weights : List UInt32 := [4294967295, 0, 4294967294, 4294967295, 7]
    let shares : List UInt32 := [1431655765, 0, 1431655764, 1431655764, 2]
    (weights ≠ [] ∧ weights.length < UInt32.size ∧ ∃ weight ∈ weights, weight ≠ 0) ∧
      largestRemainder total weights = shares ∧
      Words.largestRemainder? total weights = some shares ∧
      Apportions total.toNat (weights.map UInt32.toNat) (shares.map UInt32.toNat) ∧
      shares[1]? = some 0 := by
  intro total weights shares
  have nonempty : weights ≠ [] := by decide
  have few : weights.length < UInt32.size := by decide
  have heavy : ∃ weight ∈ weights, weight ≠ 0 := by decide
  have counted : effectiveWeights (weights.map UInt32.toNat) = weights.map UInt32.toNat := by
    decide
  have computed : largestRemainder total weights = shares := by
    have remainders : (weights.map UInt32.toNat).map
        (remainder total.toNat (weights.map UInt32.toNat).sum) =
          [4294967301, 0, 6, 4294967301, 4294967283] := by decide +kernel
    have oneLeft : leftover total.toNat (weights.map UInt32.toNat) = 1 := by decide +kernel
    have firstServed : favoured total.toNat (weights.map UInt32.toNat) = [0] := by
      rw [favoured_eq, remainders, oneLeft]
      cbv
    rw [largestRemainder, counted, Allocation.shares, firstServed]
    decide +kernel
  have promised := largestRemainder_apportions total nonempty few
  rw [computed, counted] at promised
  exact ⟨⟨nonempty, few, heavy⟩, computed, promised.1, promised.2.1, promised.2.2 heavy 1 rfl⟩

end Reconciler.Allocation
