import Mathlib.Data.List.Induction
import Mathlib.Data.Nat.Digits.Defs
import Mathlib.Tactic.IntervalCases
import Reconciler.Text.Blank
import Reconciler.Text.Digits

/-!
# Numbers and their digits

The digits that a number is written with write that number: `exists_paddedDigits`. Decimal digits
followed by something else are split off as they are, and hexadecimal digits are read back one by
one.
-/

namespace Reconciler.Text

variable {base width number : Nat}

theorem eq_of_toString_eq {first second : Nat} (same : toString first = toString second) :
    first = second := by
  rw [Nat.toString_eq_ofList_toDigits, Nat.toString_eq_ofList_toDigits, String.ofList_inj] at same
  rw [← @Nat.ofDigitChars_ten_toDigits first, same, Nat.ofDigitChars_ten_toDigits]

theorem numberOfDigits_concat (base : Nat) (digits : List Nat) (digit : Nat) :
    numberOfDigits base (digits ++ [digit]) = numberOfDigits base digits * base + digit := by
  rw [numberOfDigits, List.foldl_append, List.foldl_cons, List.foldl_nil, numberOfDigits]

theorem numberOfDigits_lt {digits : List Nat} (proper : ∀ digit ∈ digits, digit < base) :
    numberOfDigits base digits < base ^ digits.length := by
  induction digits using List.reverseRecOn with
  | nil => simp [numberOfDigits]
  | append_singleton digits digit ih =>
      rw [List.forall_mem_append, List.forall_mem_singleton] at proper
      have front := ih proper.1
      rw [numberOfDigits_concat, List.length_append, List.length_singleton, pow_succ]
      calc numberOfDigits base digits * base + digit
          < numberOfDigits base digits * base + base := Nat.add_lt_add_left proper.2 _
        _ = (numberOfDigits base digits + 1) * base := (Nat.succ_mul _ _).symm
        _ ≤ base ^ digits.length * base := Nat.mul_le_mul_right _ front

/-- Zeros in front leave a number as it is. -/
theorem numberOfDigits_replicate (base zeros : Nat) (digits : List Nat) :
    numberOfDigits base (List.replicate zeros 0 ++ digits) = numberOfDigits base digits := by
  induction zeros with
  | zero => rfl
  | succ zeros ih =>
      rw [List.replicate_succ, List.cons_append, numberOfDigits, List.foldl_cons, Nat.zero_mul,
        Nat.add_zero]
      exact ih

/-- The digits of a number write it. -/
theorem exists_toDigits (proper : 1 < base) (number : Nat) : ∃ digits,
    Nat.toDigits base number = digits.map Nat.digitChar ∧ (∀ digit ∈ digits, digit < base) ∧
      numberOfDigits base digits = number := by
  induction number using Nat.strongRecOn with
  | ind number ih =>
      rcases Nat.lt_or_ge number base with small | large
      · exact ⟨[number], Nat.toDigits_of_lt_base small, by simpa using small,
          by simp [numberOfDigits]⟩
      · rcases ih (number / base) (Nat.div_lt_self (by omega) proper) with
          ⟨digits, written, areProper, same⟩
        refine ⟨digits ++ [number % base], ?_, ?_, ?_⟩
        · rw [Nat.toDigits_of_base_le proper large, written, List.map_append, List.map_singleton]
        · rw [List.forall_mem_append, List.forall_mem_singleton]
          exact ⟨areProper, Nat.mod_lt _ (by omega)⟩
        · rw [numberOfDigits_concat, same, Nat.mul_comm, Nat.div_add_mod]

/-- The digits of a number, padded to a width, write it, and have the width if it has room. -/
theorem exists_paddedDigits (proper : 1 < base) (width number : Nat) : ∃ digits,
    paddedDigits base width number = digits.map Nat.digitChar ∧
      (∀ digit ∈ digits, digit < base) ∧ numberOfDigits base digits = number ∧
      (0 < width → number < base ^ width → digits.length = width) := by
  rcases exists_toDigits proper number with ⟨digits, written, areProper, same⟩
  refine ⟨List.replicate (width - digits.length) 0 ++ digits, ?_, ?_, ?_, ?_⟩
  · rw [paddedDigits, written, List.map_append, List.map_replicate, List.length_map]
    rfl
  · rw [List.forall_mem_append]
    refine ⟨fun digit member => ?_, areProper⟩
    rw [List.eq_of_mem_replicate member]
    omega
  · rw [numberOfDigits_replicate, same]
  · intro positive room
    have short := (Nat.length_toDigits_le_iff proper positive).mpr room
    rw [written, List.length_map] at short
    rw [List.length_append, List.length_replicate]
    omega

section Decimal

variable {digit : Nat} {digits : List Nat}

/-- White space is not made of digits. -/
theorem isBlankChar_of_isDecimalDigit {character : Char}
    (isDigit : isDecimalDigit character = true) : isBlankChar character = false := by
  have bounds : '0' ≤ character ∧ character ≤ '9' := by
    rw [isDecimalDigit, decimalDigit?] at isDigit
    by_contra outside
    simp [outside] at isDigit
  have least : 48 ≤ character.toNat := bounds.1
  have most : character.toNat ≤ 57 := bounds.2
  rw [isBlankChar]
  interval_cases character.toNat <;> rfl

/-- Digits are not trimmed. -/
theorem trimStart_digits {digits : List Char} (nonempty : digits ≠ [])
    (areDigits : ∀ character ∈ digits, isDecimalDigit character = true) (rest : List Char) :
    trimStart (digits ++ rest) = digits ++ rest := by
  cases digits with
  | nil => exact absurd rfl nonempty
  | cons character digits =>
      have isDigit := areDigits character List.mem_cons_self
      rw [trimStart, List.cons_append, List.dropWhile_cons_of_neg]
      simp [isBlankChar_of_isDecimalDigit isDigit]

theorem decimalDigit?_digitChar (proper : digit < 10) :
    decimalDigit? digit.digitChar = some digit := by
  interval_cases digit <;> rfl

theorem isDecimalDigit_of_mem (proper : ∀ digit ∈ digits, digit < 10) :
    ∀ character ∈ digits.map Nat.digitChar, isDecimalDigit character = true := by
  intro character member
  rcases List.mem_map.mp member with ⟨digit, isDigit, rfl⟩
  rw [isDecimalDigit, decimalDigit?_digitChar (proper digit isDigit), Option.isSome_some]

theorem decimalNumber_map (proper : ∀ digit ∈ digits, digit < 10) :
    decimalNumber (digits.map Nat.digitChar) = numberOfDigits 10 digits := by
  rw [decimalNumber, List.map_map]
  refine congrArg _ ((List.map_congr_left fun digit member => ?_).trans (List.map_id digits))
  rw [Function.comp, decimalDigit?_digitChar (proper digit member), Option.getD_some, id]

theorem decimalNumber_lt (digits : List Char) : decimalNumber digits < 10 ^ digits.length := by
  rw [← List.length_map (fun digit => (decimalDigit? digit).getD 0)]
  refine numberOfDigits_lt fun value member => ?_
  rcases List.mem_map.mp member with ⟨character, _, rfl⟩
  rw [decimalDigit?]
  split
  · rename_i isDigit
    have atMost : character.toNat ≤ '9'.toNat := isDigit.2
    have nine : '9'.toNat = 57 := rfl
    have zero : '0'.toNat = 48 := rfl
    rw [Option.getD_some]
    omega
  · simp

/-- Digits are split off up to the limit, or up to the first character that is none. -/
theorem splitDigits_append {limit : Nat} {digits rest : List Char}
    (areDigits : ∀ character ∈ digits, isDecimalDigit character = true)
    (within : digits.length ≤ limit)
    (ends : digits.length = limit ∨ ∀ character ∈ rest.head?, isDecimalDigit character = false) :
    splitDigits limit (digits ++ rest) = (digits, rest) := by
  have none : (rest.take (limit - digits.length)).takeWhile isDecimalDigit = [] := by
    rcases ends with reached | other
    · simp [reached]
    · cases rest with
      | nil => simp
      | cons character rest =>
          have isOther := other character rfl
          cases limit - digits.length <;> simp [isOther]
  have first : ((digits ++ rest).take limit).takeWhile isDecimalDigit = digits := by
    rw [List.take_append, List.take_of_length_le within, List.takeWhile_append_of_pos areDigits,
      none, List.append_nil]
  rw [splitDigits]
  simp only [first, List.drop_left]

/-- The characters of a number in decimal notation. -/
theorem exists_padded (width number : Nat) : ∃ digits,
    (padded width number).toList = digits.map Nat.digitChar ∧ (∀ digit ∈ digits, digit < 10) ∧
      numberOfDigits 10 digits = number ∧
      (0 < width → number < 10 ^ width → digits.length = width) := by
  rw [padded, String.toList_ofList]
  exact exists_paddedDigits (by decide) width number

theorem isDecimalDigit_padded (width number : Nat) :
    ∀ character ∈ (padded width number).toList, isDecimalDigit character = true := by
  rcases exists_padded width number with ⟨digits, written, proper, _⟩
  rw [written]
  exact isDecimalDigit_of_mem proper

theorem decimalNumber_padded (width number : Nat) :
    decimalNumber (padded width number).toList = number := by
  rcases exists_padded width number with ⟨digits, written, proper, same, _⟩
  rw [written, decimalNumber_map proper, same]

theorem length_padded (positive : 0 < width) (room : number < 10 ^ width) :
    (padded width number).toList.length = width := by
  rcases exists_padded width number with ⟨digits, written, _, _, wide⟩
  rw [written, List.length_map, wide positive room]

theorem padded_ne_nil (width number : Nat) : (padded width number).toList ≠ [] := by
  rw [padded, String.toList_ofList, paddedDigits]
  exact List.append_ne_nil_of_right_ne_nil _ Nat.toDigits_ne_nil

/-- A number in decimal notation that has the limit of digits is split off from what follows. -/
theorem splitDigits_padded (positive : 0 < width) (room : number < 10 ^ width) (rest : List Char) :
    splitDigits width ((padded width number).toList ++ rest) =
      ((padded width number).toList, rest) :=
  have long := length_padded positive room
  splitDigits_append (isDecimalDigit_padded width number) long.le (Or.inl long)

end Decimal

section Hexadecimal

theorem hexDigit?_digitChar {digit : Nat} (proper : digit < 16) :
    hexDigit? digit.digitChar = some digit := by
  interval_cases digit <;> rfl

theorem lt_of_hexDigit? {character : Char} {digit : Nat}
    (isDigit : hexDigit? character = some digit) : digit < 16 := by
  have ofLe {first last : Char} (order : first ≤ character ∧ character ≤ last) :
      first.toNat ≤ character.toNat ∧ character.toNat ≤ last.toNat := order
  rw [hexDigit?] at isDigit
  split_ifs at isDigit with small lower upper
  all_goals cases isDigit
  · have bounds : 48 ≤ character.toNat ∧ character.toNat ≤ 57 := ofLe small
    change character.toNat - 48 < 16
    omega
  · have bounds : 97 ≤ character.toNat ∧ character.toNat ≤ 102 := ofLe lower
    change character.toNat - 97 + 10 < 16
    omega
  · have bounds : 65 ≤ character.toNat ∧ character.toNat ≤ 70 := ofLe upper
    change character.toNat - 65 + 10 < 16
    omega

/-- Digits are read one by one from their characters. -/
theorem mapM_hexDigit?_map {digits : List Nat} (proper : ∀ digit ∈ digits, digit < 16) :
    (digits.map Nat.digitChar).mapM hexDigit? = some digits := by
  induction digits with
  | nil => rfl
  | cons digit digits ih =>
      rw [List.forall_mem_cons] at proper
      rw [List.map_cons, List.mapM_cons, hexDigit?_digitChar proper.1, ih proper.2]
      rfl

/-- What is read from characters one by one are as many digits. -/
theorem length_of_mapM_hexDigit? {characters : List Char} {digits : List Nat}
    (read : characters.mapM hexDigit? = some digits) :
    digits.length = characters.length ∧ ∀ digit ∈ digits, digit < 16 := by
  induction characters generalizing digits with
  | nil =>
      cases read
      simp
  | cons character characters ih =>
      simp only [List.mapM_cons, Option.bind_eq_bind, Option.bind_eq_some_iff] at read
      rcases read with ⟨digit, isDigit, others, areDigits, same⟩
      cases same
      rcases ih areDigits with ⟨long, proper⟩
      exact ⟨by simp [long], List.forall_mem_cons.mpr ⟨lt_of_hexDigit? isDigit, proper⟩⟩

end Hexadecimal

end Reconciler.Text
