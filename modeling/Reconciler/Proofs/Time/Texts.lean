import Reconciler.Proofs.Text.Digits
import Reconciler.Proofs.Time.Calendar
import Reconciler.Time.Reader
import Reconciler.Time.Writer

/-!
# Texts of points in time

A point in time within the range of the calendar is read back from its text, and whatever is read
from a text lies in that range. So a point that was read is read back from its text:
`readsBack_of_read?`.
-/

namespace Reconciler.Timestamp

open Text

/-- Whether a point in time is read back from its text. -/
def ReadsBack (time : Timestamp) : Prop :=
  read? time.write = some time

/-- A point in time of the calendar's range; only the last second of a minute has a leap second. -/
structure IsRegular (time : Timestamp) : Prop where
  earliest : earliestSecond ≤ time.seconds
  latest : time.seconds ≤ latestSecond
  nanos : time.nanos < nanosPerSecond ∨
    time.nanos < 2 * nanosPerSecond ∧ time.seconds % 60 = 59

section Pieces

variable {width number : Nat} {character : Char}

theorem trimStart_cons (isMark : isBlankChar character = false) (rest : List Char) :
    trimStart (character :: rest) = character :: rest := by
  rw [trimStart, List.dropWhile_cons_of_neg (by simp [isMark])]

theorem readSeparator_cons (isMark : isBlankChar character = false) (rest : List Char) :
    readSeparator character (character :: rest) = some rest := by
  rw [readSeparator, trimStart_cons isMark]
  simp

/-- A number that fills the limit of digits is read, whatever follows. -/
theorem readNumber_padded (positive : 0 < width) (room : number < 10 ^ width) (rest : List Char) :
    readNumber width ((padded width number).toList ++ rest) = some (number, rest) := by
  rw [readNumber,
    trimStart_digits (padded_ne_nil width number) (isDecimalDigit_padded width number),
    splitDigits_padded positive room]
  simp only [List.isEmpty_iff, padded_ne_nil, if_false, decimalNumber_padded]

/-- Without a limit, all digits in front of a mark are split off. -/
theorem splitDigits_mark {limit : Nat} (within : (padded width number).toList.length ≤ limit)
    (isMark : isDecimalDigit character = false) (rest : List Char) :
    splitDigits limit ((padded width number).toList ++ character :: rest) =
      ((padded width number).toList, character :: rest) :=
  splitDigits_append (isDecimalDigit_padded width number) within
    (Or.inr (by simpa using isMark))

/-- Digits without a sign are read as a year of at most four digits. -/
theorem readYear_digits {digits : List Char} (nonempty : digits ≠ [])
    (areDigits : ∀ character ∈ digits, isDecimalDigit character = true) (rest : List Char) :
    readYear (digits ++ rest) =
      (readNumber 4 (digits ++ rest)).map fun (year, after) => ((year : Int), after) := by
  rw [readYear, trimStart_digits nonempty areDigits]
  cases digits with
  | nil => exact absurd rfl nonempty
  | cons character digits =>
      have isDigit := areDigits character List.mem_cons_self
      split
      · rename_i sign
        rw [List.cons_append, List.cons.injEq] at sign
        exact absurd (sign.1 ▸ isDigit) (by decide)
      · rename_i sign
        rw [List.cons_append, List.cons.injEq] at sign
        exact absurd (sign.1 ▸ isDigit) (by decide)
      · rfl

theorem readYear_writeYear (year : Int) (rest : List Char) :
    readYear ((writeYear year).toList ++ '-' :: rest) = some (year, '-' :: rest) := by
  have split : splitDigits ((padded 4 year.natAbs).toList ++ '-' :: rest).length
      ((padded 4 year.natAbs).toList ++ '-' :: rest) =
        ((padded 4 year.natAbs).toList, '-' :: rest) :=
    splitDigits_mark (by simp) (by decide) rest
  rw [writeYear]
  split_ifs with plain negative
  · have room : year.toNat < 10 ^ 4 := by omega
    rw [readYear_digits (padded_ne_nil _ _) (isDecimalDigit_padded _ _),
      readNumber_padded (by decide) room, Option.map_some]
    simp only [Int.toNat_of_nonneg plain.1]
  · have sign : "-".toList = ['-'] := rfl
    rw [String.toList_append, List.append_assoc, sign, List.singleton_append, readYear,
      trimStart_cons (by decide)]
    simp only [split, List.isEmpty_iff, padded_ne_nil, if_false, decimalNumber_padded]
    rw [show -(year.natAbs : Int) = year by omega]
  · have sign : "+".toList = ['+'] := rfl
    rw [String.toList_append, List.append_assoc, sign, List.singleton_append, readYear,
      trimStart_cons (by decide)]
    simp only [split, List.isEmpty_iff, padded_ne_nil, if_false, decimalNumber_padded]
    rw [show (year.natAbs : Int) = year by omega]

theorem readFraction_padded (within : width ≤ 9) (positive : 0 < width)
    (room : number < 10 ^ width) (rest : List Char) :
    readFraction ('.' :: ((padded width number).toList ++ 'Z' :: rest)) =
      some (number * 10 ^ (9 - width), 'Z' :: rest) := by
  have long := length_padded positive room
  rw [readFraction, splitDigits_mark (long.trans_le within) (by decide)]
  simp only [List.isEmpty_iff, padded_ne_nil, if_false, decimalNumber_padded, long]
  rfl

theorem readFraction_writeFraction {nanos : Nat} (room : nanos < nanosPerSecond)
    (rest : List Char) :
    readFraction ((writeFraction nanos).toList ++ 'Z' :: rest) = some (nanos, 'Z' :: rest) := by
  have mark : ".".toList = ['.'] := rfl
  rw [nanosPerSecond] at room
  rw [writeFraction]
  split_ifs with isWhole inMillis inMicros
  · rw [isWhole]
    rfl
  · have read := readFraction_padded (show 3 ≤ 9 by decide) (by decide)
      (show nanos / 1000000 < 10 ^ 3 by omega) rest
    rw [String.toList_append, List.append_assoc, mark, List.singleton_append]
    exact read.trans (by
      rw [show nanos / 1000000 * 10 ^ (9 - 3) = nanos by omega])
  · have read := readFraction_padded (show 6 ≤ 9 by decide) (by decide)
      (show nanos / 1000 < 10 ^ 6 by omega) rest
    rw [String.toList_append, List.append_assoc, mark, List.singleton_append]
    exact read.trans (by
      rw [show nanos / 1000 * 10 ^ (9 - 6) = nanos by omega])
  · have read := readFraction_padded (show 9 ≤ 9 by decide) (by decide)
      (show nanos < 10 ^ 9 by omega) rest
    rw [String.toList_append, List.append_assoc, mark, List.singleton_append]
    exact read.trans (by rw [Nat.sub_self, pow_zero, Nat.mul_one])

end Pieces

section Written

theorem readDate_write {date : Date} (valid : date.isValid = true)
    (earliest : earliestYear ≤ date.year) (latest : date.year ≤ latestYear) (rest : List Char) :
    readDate ((writeYear date.year).toList ++ '-' :: ((padded 2 date.month).toList ++
      '-' :: ((padded 2 date.day).toList ++ rest))) = some (date, rest) := by
  have bounds := valid
  simp only [Date.isValid, Bool.and_eq_true, decide_eq_true_eq] at bounds
  have most := Date.daysInMonth_le date.year date.month
  have month : date.month < 10 ^ 2 := by omega
  have day : date.day < 10 ^ 2 := by omega
  have isMark : isBlankChar '-' = false := by decide
  simp only [readDate, readYear_writeYear, readSeparator_cons isMark,
    readNumber_padded (by decide) month, readNumber_padded (by decide) day, Option.bind_eq_bind,
    Option.bind_some, valid, earliest, latest]
  rfl

theorem readTimeOfDay_write {hour minute second nanos : Nat} (isHour : hour < 24)
    (isMinute : minute < 60) (isSecond : second ≤ 60) (room : nanos < nanosPerSecond)
    (rest : List Char) :
    readTimeOfDay ((padded 2 hour).toList ++ ':' :: ((padded 2 minute).toList ++
      ':' :: ((padded 2 second).toList ++ ((writeFraction nanos).toList ++ 'Z' :: rest)))) =
      some (if second = 60 then (hour * 3600 + minute * 60 + 59, nanosPerSecond + nanos)
        else (hour * 3600 + minute * 60 + second, nanos), 'Z' :: rest) := by
  have isMark : isBlankChar ':' = false := by decide
  simp only [readTimeOfDay, readSeparator_cons isMark,
    readNumber_padded (by decide) (show hour < 10 ^ 2 by omega),
    readNumber_padded (by decide) (show minute < 10 ^ 2 by omega),
    readNumber_padded (by decide) (show second < 10 ^ 2 by omega),
    readFraction_writeFraction room, Option.bind_eq_bind, Option.bind_some, isHour, isMinute,
    isSecond]
  split_ifs <;> rfl

theorem toList_write (time : Timestamp) : time.write.toList =
    let date := Date.ofDayNumber (time.seconds / secondsPerDay)
    let secondOfDay := time.secondOfDay.toNat
    (writeYear date.year).toList ++ '-' :: ((padded 2 date.month).toList ++
      '-' :: ((padded 2 date.day).toList ++ 'T' :: ((padded 2 (secondOfDay / 3600)).toList ++
        ':' :: ((padded 2 (secondOfDay / 60 % 60)).toList ++
          ':' :: ((padded 2 (secondOfDay % 60 + if time.inLeapSecond then 1 else 0)).toList ++
            ((writeFraction (if time.inLeapSecond then time.nanos - nanosPerSecond
              else time.nanos)).toList ++ ['Z'])))))) := by
  simp [write]

/-- The time of day that is written is read as the second of the day and the nanoseconds. -/
theorem IsRegular.readTimeOfDay_write {time : Timestamp} (isRegular : time.IsRegular)
    (rest : List Char) :
    let secondOfDay := time.secondOfDay.toNat
    readTimeOfDay ((padded 2 (secondOfDay / 3600)).toList ++
      ':' :: ((padded 2 (secondOfDay / 60 % 60)).toList ++
        ':' :: ((padded 2 (secondOfDay % 60 + if time.inLeapSecond then 1 else 0)).toList ++
          ((writeFraction (if time.inLeapSecond then time.nanos - nanosPerSecond
            else time.nanos)).toList ++ 'Z' :: rest)))) =
      some ((secondOfDay, time.nanos), 'Z' :: rest) := by
  have bounds : 0 ≤ time.secondOfDay ∧ time.secondOfDay < 86400 ∧
      time.secondOfDay % 60 = time.seconds % 60 := by
    rw [secondOfDay, secondsPerDay]
    omega
  cases isLeap : time.inLeapSecond with
  | false =>
      have small : time.nanos < nanosPerSecond := by
        simpa [inLeapSecond] using isLeap
      simp only [Bool.false_eq_true, if_false]
      rw [Timestamp.readTimeOfDay_write (by omega) (by omega) (by omega) small, if_neg (by omega)]
      rw [show time.secondOfDay.toNat / 3600 * 3600 + time.secondOfDay.toNat / 60 % 60 * 60 +
        (time.secondOfDay.toNat % 60 + 0) = time.secondOfDay.toNat by omega]
  | true =>
      have large : nanosPerSecond ≤ time.nanos := by
        simpa [inLeapSecond] using isLeap
      have isLast : time.nanos < 2 * nanosPerSecond ∧ time.seconds % 60 = 59 :=
        isRegular.nanos.resolve_left (Nat.not_lt.mpr large)
      simp only [if_true]
      rw [Timestamp.readTimeOfDay_write (by omega) (by omega) (by omega) (by omega),
        if_pos (by omega), Nat.add_sub_cancel' large]
      rw [show time.secondOfDay.toNat / 3600 * 3600 + time.secondOfDay.toNat / 60 % 60 * 60 + 59 =
        time.secondOfDay.toNat by omega]

/-- A point in time of the calendar's range is read back from its text. -/
theorem IsRegular.readsBack {time : Timestamp} (isRegular : time.IsRegular) : time.ReadsBack := by
  have earliest : earliestYear ≤ (Date.ofDayNumber (time.seconds / secondsPerDay)).year := by
    refine Date.le_year_ofDayNumber ?_
    have earliest := isRegular.earliest
    rw [earliestSecond, secondsPerDay] at *
    omega
  have latest : (Date.ofDayNumber (time.seconds / secondsPerDay)).year ≤ latestYear := by
    refine Date.year_ofDayNumber_le ?_
    have latest := isRegular.latest
    rw [latestSecond, secondsPerDay] at *
    omega
  have seconds : time.seconds / secondsPerDay * secondsPerDay + time.secondOfDay.toNat - 0 =
      time.seconds := by
    rw [secondOfDay, secondsPerDay]
    omega
  have zone : readZone ['Z'] = some (0, []) := by
    rw [readZone, trimStart_cons (by decide)]
    rfl
  rw [ReadsBack, read?, toList_write]
  simp only [readDate_write (Date.isValid_ofDayNumber _) earliest latest, Option.bind_eq_bind,
    Option.bind_some, List.head?_cons, List.tail_cons, isRegular.readTimeOfDay_write,
    Date.dayNumber_ofDayNumber, zone, seconds, isRegular.earliest, isRegular.latest]
  rfl

end Written

section Read

variable {characters rest : List Char}

theorem length_splitDigits_le (limit : Nat) (characters : List Char) :
    (splitDigits limit characters).1.length ≤ limit :=
  (List.takeWhile_prefix _).length_le.trans (List.length_take_le _ _)

theorem nanos_of_readFraction {nanos : Nat} (read : readFraction characters = some (nanos, rest)) :
    nanos < nanosPerSecond := by
  rw [readFraction.eq_def] at read
  split at read
  · rename_i after
    have short := length_splitDigits_le 9 after
    have bound := decimalNumber_lt (splitDigits 9 after).1
    dsimp only at read
    split_ifs at read
    cases read
    calc decimalNumber (splitDigits 9 after).1 * 10 ^ (9 - (splitDigits 9 after).1.length)
        < 10 ^ (splitDigits 9 after).1.length * 10 ^ (9 - (splitDigits 9 after).1.length) :=
          Nat.mul_lt_mul_of_pos_right bound (by positivity)
      _ = nanosPerSecond := by
          rw [← pow_add, Nat.add_sub_cancel' short]
          rfl
  · cases read
    decide

/-- An offset of a zone is one of whole minutes. -/
theorem mod_of_readOffsetSize {size : Nat} (read : readOffsetSize characters = some (size, rest)) :
    size % 60 = 0 := by
  simp only [readOffsetSize, Option.bind_eq_bind, Option.bind_eq_some_iff] at read
  rcases read with ⟨_, _, _, _, _, _, same⟩
  cases same
  omega

theorem mod_of_map_readOffsetSize (signed : Nat → Int) {offset : Int}
    (whole : ∀ size : Nat, size % 60 = 0 → signed size % 60 = 0)
    (read : ((readOffsetSize characters).map fun (size, after) => (signed size, after)) =
      some (offset, rest)) : offset % 60 = 0 := by
  rcases Option.map_eq_some_iff.mp read with ⟨⟨size, after⟩, isSize, same⟩
  cases same
  exact whole size (mod_of_readOffsetSize isSize)

theorem mod_of_readZone {offset : Int} (read : readZone characters = some (offset, rest)) :
    offset % 60 = 0 := by
  rw [readZone.eq_def] at read
  split at read
  · cases read
    rfl
  · cases read
    rfl
  · exact mod_of_map_readOffsetSize (fun size => size) (by omega) read
  · exact mod_of_map_readOffsetSize (fun size => -size) (by omega) read
  · exact mod_of_map_readOffsetSize (fun size => -size) (by omega) read
  · split_ifs at read
    cases read
    rfl
  · cases read

theorem nanos_of_readTimeOfDay {second nanos : Nat}
    (read : readTimeOfDay characters = some ((second, nanos), rest)) :
    nanos < nanosPerSecond ∨ nanos < 2 * nanosPerSecond ∧ second % 60 = 59 := by
  simp only [readTimeOfDay, Option.bind_eq_bind, Option.bind_eq_some_iff] at read
  rcases read with ⟨hour, _, _, _, minute, _, _, _, part, _, fraction, isFraction, _, _, same⟩
  have room := nanos_of_readFraction isFraction
  split_ifs at same
  · cases same
    refine Or.inr ⟨by omega, by omega⟩
  · cases same
    exact Or.inl room

/-- What is read lies in the calendar's range. -/
theorem isRegular_of_read? {text : String} {time : Timestamp} (read : read? text = some time) :
    time.IsRegular := by
  simp only [read?, Option.bind_eq_bind, Option.bind_eq_some_iff] at read
  rcases read with ⟨date, _, _, _, _, _, ⟨⟨second, nanos⟩, _⟩, isTime, ⟨offset, _⟩, isZone, _, _, _,
    inRange, same⟩
  rw [Option.guard_eq_some'] at inRange
  cases same
  have whole := mod_of_readZone isZone
  refine ⟨inRange.1, inRange.2, (nanos_of_readTimeOfDay isTime).imp_right fun leap =>
    ⟨leap.1, ?_⟩⟩
  have isLast := leap.2
  change (date.1.dayNumber * 86400 + second - offset) % 60 = 59
  omega

/-- A point in time that was read is read back from its text. -/
theorem readsBack_of_read? {text : String} {time : Timestamp} (read : read? text = some time) :
    time.ReadsBack :=
  (isRegular_of_read? read).readsBack

end Read

end Reconciler.Timestamp
