import Mathlib.Data.Nat.Find
import Mathlib.Order.Monotone.Basic
import Mathlib.Tactic.IntervalCases
import Reconciler.Time.Calendar

/-!
# Days and their dates

Every day has a date of the calendar, and the number of that date is the number of the day. Years
begin in March here; a cycle of 400 of them has days enough that each year of it begins where
`yearStart` says.
-/

namespace Reconciler.Date

/-- The days of a cycle that come before a year of it. -/
def yearStart (year : Nat) : Nat :=
  365 * year + year / 4 - year / 100 + year / 400

/-- The year of a cycle that one of its days lies in, as it is found from the day. -/
def yearOfDay (day : Nat) : Nat :=
  (day - day / 1460 + day / 36524 - day / 146096) / 365

theorem yearOfDay_mono {first second : Nat} (order : first ≤ second) (inCycle : second < 146097) :
    yearOfDay first ≤ yearOfDay second := by
  refine Nat.div_le_div_right ?_
  induction second, order using Nat.le_induction with
  | base => exact Nat.le_refl _
  | succ second _ ih =>
      refine (ih (by omega)).trans ?_
      omega

/-- The year that is found is right for the first and the last day of each year. -/
theorem yearOfDay_yearStart : ∀ year < 400,
    yearOfDay (yearStart year) = year ∧ yearOfDay (yearStart (year + 1) - 1) = year := by
  decide +kernel

theorem exists_year {day : Nat} (inCycle : day < 146097) :
    ∃ year < 400, yearStart year ≤ day ∧ day < yearStart (year + 1) := by
  have first : yearStart 0 ≤ day := Nat.zero_le day
  have last : ¬yearStart 400 ≤ day := Nat.not_le.mpr inCycle
  have begun := Nat.findGreatest_spec (P := fun year => yearStart year ≤ day) (Nat.zero_le 400)
    first
  have within : Nat.findGreatest (fun year => yearStart year ≤ day) 400 < 400 :=
    Nat.lt_of_le_of_ne (Nat.findGreatest_le 400) fun same => last (same ▸ begun)
  exact ⟨_, within, begun, Nat.lt_of_not_le
    (Nat.findGreatest_is_greatest (P := fun year => yearStart year ≤ day) (Nat.lt_succ_self _)
      within)⟩

theorem yearOfDay_spec {day : Nat} (inCycle : day < 146097) :
    yearOfDay day < 400 ∧ yearStart (yearOfDay day) ≤ day ∧
      day < yearStart (yearOfDay day + 1) := by
  rcases exists_year inCycle with ⟨year, within, begun, unfinished⟩
  have ends := yearOfDay_yearStart year within
  have lower := yearOfDay_mono begun inCycle
  have upper : yearOfDay day ≤ yearOfDay (yearStart (year + 1) - 1) :=
    yearOfDay_mono (by omega) (by rw [yearStart]; omega)
  have same : yearOfDay day = year := by omega
  rw [same]
  exact ⟨within, begun, unfinished⟩

/-- The month of a day of a year that begins in March, where March is month zero. -/
def marchMonth (day : Nat) : Nat :=
  (5 * day + 2) / 153

/-- The date of a day of a year that begins in March. -/
def ofMarch (year : Int) (day : Nat) : Date :=
  let month := if marchMonth day < 10 then marchMonth day + 3 else marchMonth day - 9
  ⟨if month ≤ 2 then year + 1 else year, month, day - (153 * marchMonth day + 2) / 5 + 1⟩

theorem marchMonth_spec {day : Nat} (inYear : day < 366) :
    marchMonth day < 12 ∧ (153 * marchMonth day + 2) / 5 ≤ day ∧
      day < (153 * (marchMonth day + 1) + 2) / 5 := by
  rw [marchMonth]
  omega

/-- The date of a day is that of a day of a year that begins in March. -/
theorem exists_ofMarch (number : Int) : ∃ (cycle : Int) (year day : Nat),
    year < 400 ∧ yearStart year + day < yearStart (year + 1) ∧
      number + daysToEpoch = cycle * daysPerCycle + (yearStart year + day : Nat) ∧
      ofDayNumber number = ofMarch (cycle * 400 + year) day := by
  have inCycle : ((number + daysToEpoch) % daysPerCycle).toNat < 146097 := by
    rw [daysPerCycle]
    omega
  rcases yearOfDay_spec inCycle with ⟨within, begun, unfinished⟩
  have start : yearStart (yearOfDay ((number + daysToEpoch) % daysPerCycle).toNat) =
      365 * yearOfDay ((number + daysToEpoch) % daysPerCycle).toNat +
        yearOfDay ((number + daysToEpoch) % daysPerCycle).toNat / 4 -
        yearOfDay ((number + daysToEpoch) % daysPerCycle).toNat / 100 := by
    rw [yearStart, Nat.div_eq_of_lt within, Nat.add_zero]
  refine ⟨(number + daysToEpoch) / daysPerCycle,
    yearOfDay ((number + daysToEpoch) % daysPerCycle).toNat,
    ((number + daysToEpoch) % daysPerCycle).toNat -
      yearStart (yearOfDay ((number + daysToEpoch) % daysPerCycle).toNat), within, ?_, ?_, ?_⟩
  · omega
  · rw [Nat.add_sub_cancel' begun, daysPerCycle]
    omega
  · rw [start]
    rfl

theorem month_ofMarch (year : Int) (day : Nat) : (ofMarch year day).month =
    if marchMonth day < 10 then marchMonth day + 3 else marchMonth day - 9 :=
  rfl

theorem day_ofMarch (year : Int) (day : Nat) :
    (ofMarch year day).day = day - (153 * marchMonth day + 2) / 5 + 1 :=
  rfl

/-- January and February belong to the year before, which begins in March. -/
theorem year_ofMarch (year : Int) {day : Nat} (inYear : day < 366) :
    (ofMarch year day).year = if marchMonth day < 10 then year else year + 1 := by
  have isMonth := (marchMonth_spec inYear).1
  simp only [ofMarch]
  split_ifs <;> omega

theorem dayNumber_ofMarch (cycle : Int) {year day : Nat} (within : year < 400)
    (inYear : day < 366) : (ofMarch (cycle * 400 + year) day).dayNumber =
      cycle * daysPerCycle + (yearStart year + day : Nat) - daysToEpoch := by
  rcases marchMonth_spec inYear with ⟨isMonth, begun, _⟩
  have monthBack : ((ofMarch (cycle * 400 + year) day).month + 9) % 12 = marchMonth day := by
    rw [month_ofMarch]
    split <;> omega
  have yearBack : (if (ofMarch (cycle * 400 + year) day).month ≤ 2 then
      (ofMarch (cycle * 400 + year) day).year - 1 else (ofMarch (cycle * 400 + year) day).year) =
      cycle * 400 + year := by
    rw [month_ofMarch, year_ofMarch _ inYear]
    split_ifs <;> omega
  have sameCycle : (cycle * 400 + year) / 400 = cycle := by omega
  have sameYear : (cycle * 400 + (year : Int)) % 400 = year := by omega
  have noCycle : year / 400 = 0 := Nat.div_eq_of_lt within
  rw [dayNumber]
  simp only [monthBack, yearBack, sameCycle, sameYear, day_ofMarch, yearStart, noCycle]
  omega

theorem dayNumber_ofDayNumber (number : Int) : (ofDayNumber number).dayNumber = number := by
  rcases exists_ofMarch number with ⟨cycle, year, day, within, unfinished, parts, same⟩
  have inYear : day < 366 := by
    simp only [yearStart] at unfinished
    omega
  rw [same, dayNumber_ofMarch cycle within inYear, ← parts]
  omega

/-- Only a leap year has a last day of February that other years lack. -/
theorem isLeapYear_of_day {cycle : Int} {year day : Nat} (isLast : day = 365)
    (unfinished : yearStart year + day < yearStart (year + 1)) :
    isLeapYear (cycle * 400 + year + 1) = true := by
  simp only [yearStart] at unfinished
  simp only [isLeapYear, Bool.and_eq_true, Bool.or_eq_true, beq_iff_eq, bne_iff_ne]
  omega

theorem daysInMonth_le (year : Int) (month : Nat) : daysInMonth year month ≤ 31 := by
  rw [daysInMonth]
  split_ifs <;> decide

/-- A day of a month that begins and ends where the calendar has it is a day of the calendar. -/
theorem isValid_of_month {year : Int} {day month : Nat} (isMonth : month < 12)
    (inYear : day < 366) (begun : (153 * month + 2) / 5 ≤ day)
    (ended : day < (153 * (month + 1) + 2) / 5)
    (leap : day = 365 → isLeapYear (year + 1) = true) :
    isValid ⟨if month < 10 then year else year + 1,
      if month < 10 then month + 3 else month - 9, day - (153 * month + 2) / 5 + 1⟩ = true := by
  simp only [isValid, Bool.and_eq_true, decide_eq_true_eq]
  interval_cases month <;> simp [daysInMonth] <;> try omega
  cases isLeap : isLeapYear (year + 1) with
  | false =>
      have notLast : day ≠ 365 := fun isLast => by simp [leap isLast] at isLeap
      simp only [Bool.false_eq_true, if_false]
      omega
  | true =>
      simp only [if_true]
      omega

theorem isValid_ofDayNumber (number : Int) : (ofDayNumber number).isValid = true := by
  rcases exists_ofMarch number with ⟨cycle, year, day, within, unfinished, _, same⟩
  have inYear : day < 366 := by
    simp only [yearStart] at unfinished
    omega
  rcases marchMonth_spec inYear with ⟨isMonth, begun, ended⟩
  have valid := @isValid_of_month (cycle * 400 + year) _ _ isMonth inYear begun ended
    fun isLast => isLeapYear_of_day isLast unfinished
  rw [← year_ofMarch _ inYear] at valid
  rw [same]
  exact valid

/-- Days up to the end of a year have dates up to that year. -/
theorem year_ofDayNumber_le {number year : Int} (before : number ≤ dayNumber ⟨year, 12, 31⟩) :
    (ofDayNumber number).year ≤ year := by
  rcases exists_ofMarch number with ⟨cycle, marchYear, day, within, unfinished, parts, same⟩
  have inYear : day < 366 := by
    simp only [yearStart] at unfinished
    omega
  rw [same, year_ofMarch _ inYear]
  simp [dayNumber] at before
  simp only [yearStart, daysPerCycle] at *
  rw [marchMonth]
  rcases lt_trichotomy cycle (year / 400) with earlier | sameCycle | later
  · split_ifs <;> omega
  · rcases lt_trichotomy (marchYear : Int) (year % 400) with earlier | sameYear | later
    · split_ifs <;> omega
    · split_ifs <;> omega
    · split_ifs <;> omega
  · split_ifs <;> omega

/-- Days from the beginning of a year on have dates from that year on. -/
theorem le_year_ofDayNumber {number year : Int} (after : dayNumber ⟨year, 1, 1⟩ ≤ number) :
    year ≤ (ofDayNumber number).year := by
  rcases exists_ofMarch number with ⟨cycle, marchYear, day, within, unfinished, parts, same⟩
  have inYear : day < 366 := by
    simp only [yearStart] at unfinished
    omega
  rw [same, year_ofMarch _ inYear]
  simp [dayNumber] at after
  simp only [yearStart, daysPerCycle] at *
  rw [marchMonth]
  split_ifs <;> omega

end Reconciler.Date
