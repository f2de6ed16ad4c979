import Reconciler.Proofs.Text.Digits
import Reconciler.Uuid

/-!
# Texts of identifiers

A number of 128 bits is read back from the groups of digits that it is written with, and every
number that is read has 128 bits. So an identifier that was read is read back from its text:
`readsBack_of_read?`.
-/

namespace Reconciler.Uuid

open Text

/-- Whether an identifier is read back from its text. -/
def ReadsBack (uuid : Uuid) : Prop :=
  read? uuid.write = some uuid

theorem intercalate_splitGroups (size next : Nat) (sizes : List Nat) (digits : List Char) :
    ['-'].intercalate (splitGroups (size :: next :: sizes) digits) =
      digits.take size ++
        '-' :: ['-'].intercalate (splitGroups (next :: sizes) (digits.drop size)) := by
  rw [splitGroups, splitGroups, List.intercalate_cons_cons, List.append_assoc]
  rfl

/-- Groups of digits are put together again when the hyphens between them are taken out. -/
theorem joinGroups?_splitGroups {sizes : List Nat} {digits : List Char} (nonempty : sizes ≠ [])
    (fits : digits.length = sizes.sum) :
    joinGroups? sizes (['-'].intercalate (splitGroups sizes digits)) = some digits := by
  induction sizes generalizing digits with
  | nil => exact absurd rfl nonempty
  | cons size sizes ih =>
      rw [List.sum_cons] at fits
      cases sizes with
      | nil =>
          have all : digits.length = size := by simpa using fits
          simp [splitGroups, joinGroups?, ← all]
      | cons next sizes =>
          have first : (digits.take size).length = size := by
            rw [List.length_take]
            omega
          have rest : (digits.drop size).length = (next :: sizes).sum := by
            rw [List.length_drop]
            omega
          have others := ih (List.cons_ne_nil next sizes) rest
          rw [intercalate_splitGroups, joinGroups?]
          · simp only [List.take_left' first, List.drop_left' first, first, List.head?_cons,
              List.tail_cons, others, Option.bind_eq_bind, Option.bind_some]
            exact congrArg some (List.take_append_drop size digits)
          · exact List.cons_ne_nil _ _

/-- There is a hyphen between any two groups. -/
theorem length_splitGroups {sizes : List Nat} {digits : List Char} (nonempty : sizes ≠ [])
    (fits : digits.length = sizes.sum) :
    (['-'].intercalate (splitGroups sizes digits)).length + 1 = sizes.sum + sizes.length := by
  induction sizes generalizing digits with
  | nil => exact absurd rfl nonempty
  | cons size sizes ih =>
      rw [List.sum_cons] at fits
      cases sizes with
      | nil => simp [splitGroups, fits]
      | cons next sizes =>
          have rest : (digits.drop size).length = (next :: sizes).sum := by
            rw [List.length_drop]
            omega
          have others := ih (List.cons_ne_nil next sizes) rest
          rw [intercalate_splitGroups, List.length_append, List.length_cons, List.length_take,
            List.sum_cons, List.length_cons]
          omega

theorem ofDigits?_paddedDigits {number : Nat} (room : number < 16 ^ 32) :
    ofDigits? (paddedDigits 16 32 number) = some ⟨number⟩ := by
  rcases exists_paddedDigits (show 1 < 16 by decide) 32 number with
    ⟨digits, written, proper, same, wide⟩
  have long : (digits.map Nat.digitChar).length = 32 := by
    rw [List.length_map, wide (by decide) room]
  rw [ofDigits?, written, long, mapM_hexDigit?_map proper, ← same]
  rfl

theorem toList_write (uuid : Uuid) : uuid.write.toList =
    ['-'].intercalate (splitGroups groups (paddedDigits 16 32 uuid.number)) := by
  rw [write, String.toList_intercalate]
  simp

/-- No text of an identifier begins as the longer notation does. -/
theorem urn_isPrefixOf_write (uuid : Uuid) : urn.isPrefixOf uuid.write.toList = false := by
  have isUrn : urn = ['u', 'r', 'n', ':', 'u', 'u', 'i', 'd', ':'] := by decide
  rcases exists_paddedDigits (show 1 < 16 by decide) 32 uuid.number with
    ⟨digits, written, proper, _⟩
  rw [toList_write, written, isUrn]
  cases digits with
  | nil => rfl
  | cons digit digits =>
      have isDigit := hexDigit?_digitChar (proper digit List.mem_cons_self)
      have other : ('u' == digit.digitChar) = false :=
        beq_false_of_ne fun same => by simp [← same, hexDigit?] at isDigit
      change ('u' == digit.digitChar && _) = false
      rw [other, Bool.false_and]

theorem readsBack_of_lt {uuid : Uuid} (room : uuid.number < 16 ^ 32) : uuid.ReadsBack := by
  rcases exists_paddedDigits (show 1 < 16 by decide) 32 uuid.number with
    ⟨digits, written, _, _, wide⟩
  have fits : (paddedDigits 16 32 uuid.number).length = groups.sum := by
    rw [written, List.length_map, wide (by decide) room]
    rfl
  have long : uuid.write.toList.length = 36 := by
    rw [toList_write]
    exact Nat.succ_inj.mp (length_splitGroups (by decide) fits)
  have joined : joinGroups? groups uuid.write.toList = some (paddedDigits 16 32 uuid.number) := by
    rw [toList_write]
    exact joinGroups?_splitGroups (by decide) fits
  rw [ReadsBack, read?]
  simp only [long, urn_isPrefixOf_write]
  exact (congrArg (·.bind ofDigits?) joined).trans (ofDigits?_paddedDigits room)

theorem lt_of_ofDigits? {digits : List Char} {uuid : Uuid} (read : ofDigits? digits = some uuid) :
    uuid.number < 16 ^ 32 := by
  simp only [ofDigits?, Option.bind_eq_bind, Option.bind_eq_some_iff] at read
  rcases read with ⟨_, long, values, areValues, same⟩
  rw [Option.guard_eq_some'] at long
  rcases length_of_mapM_hexDigit? areValues with ⟨sameLength, proper⟩
  cases same
  have bound := numberOfDigits_lt proper
  rwa [sameLength, long] at bound

theorem lt_of_ofGroups? {characters : List Char} {uuid : Uuid}
    (read : ofGroups? characters = some uuid) : uuid.number < 16 ^ 32 := by
  rcases Option.bind_eq_some_iff.mp read with ⟨digits, _, isRead⟩
  exact lt_of_ofDigits? isRead

theorem lt_of_read? {text : String} {uuid : Uuid} (read : read? text = some uuid) :
    uuid.number < 16 ^ 32 := by
  rw [read?] at read
  split_ifs at read
  · exact lt_of_ofDigits? read
  all_goals exact lt_of_ofGroups? read

/-- An identifier that was read is read back from its text. -/
theorem readsBack_of_read? {text : String} {uuid : Uuid} (read : read? text = some uuid) :
    uuid.ReadsBack :=
  readsBack_of_lt (lt_of_read? read)

end Reconciler.Uuid
