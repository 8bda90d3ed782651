import ImmDosNx.Time.Date

/-! `DateTime::from_unix_epoch` (`time/date.rs`), the decoder of CPIO modification
times: the era-based `civil_from_days` count from 1 March of year 0, then the time of
day by subtraction. Every intermediate value stays in `u32` for every `u32` input and
every field is below 256, so the model computes in `Nat`. From 1 January 1980 to the
end of February 2100 it agrees with `Timestamp::to_datetime`: both repeat every four
years there, and one four-year cycle is checked. -/
namespace ImmDosNx.Time

def yearOfEra (dayOfEra : Nat) : Nat :=
  (dayOfEra - dayOfEra / 1460 + dayOfEra / 36524 - dayOfEra / (146097 - 1)) / 365

def dayOfYear (dayOfEra yearOfEra : Nat) : Nat := dayOfEra - (yearOfEra * 365 + yearOfEra / 4 - yearOfEra / 100)

def civilYearDay (days : Nat) : Nat × Nat :=
  let days := days + 719468
  let era := days / 146097
  let dayOfEra := days - era * 146097
  (yearOfEra dayOfEra + era * 400, dayOfYear dayOfEra (yearOfEra dayOfEra))

def civilDate (yearDay : Nat × Nat) : Date :=
  let (year, dayOfYear) := yearDay
  let monthPartial := (dayOfYear * 5 + 2) / 153
  let dayOfMonth := dayOfYear - (153 * monthPartial + 2) / 5 + 1
  let month := if monthPartial < 10 then monthPartial + 3 else monthPartial - 9
  let year := if month ≤ 2 then year + 1 else year
  let year := if year < 1980 then 0 else year - 1980
  ⟨dayOfMonth, month, year⟩

def DateTime.fromUnixEpoch (seconds : UInt32) : DateTime :=
  let seconds := seconds.toNat
  let secondsOfDay := seconds - seconds / secondsInDay * secondsInDay
  let hours := secondsOfDay / 60 / 60
  let minutesOfDay := secondsOfDay / 60
  let minutes := minutesOfDay - hours * 60
  let sec := secondsOfDay - hours * 60 * 60 - minutes * 60
  ⟨civilDate (civilYearDay (seconds / secondsInDay)), ⟨hours, minutes, sec⟩⟩

/-! ### Four years on, within one century of an era and across 1 March 2000 -/

theorem yearOfEraFirstCentury {d : Nat} (inside : d + 1461 < 36524) :
    yearOfEra (d + 1461) = yearOfEra d + 4 ∧ yearOfEra d < 96 := by
  have centuries : d / 36524 = 0 ∧ (d + 1461) / 36524 = 0 ∧ d / 146096 = 0 ∧ (d + 1461) / 146096 = 0 := by omega
  simp only [yearOfEra, Nat.reduceSub, centuries.1, centuries.2.1, centuries.2.2.1, centuries.2.2.2, Nat.add_zero,
    Nat.sub_zero]
  omega

theorem yearOfEraLastCentury {d : Nat} (after : 3 * 36524 ≤ d) (inside : d + 1461 ≤ 146096) :
    yearOfEra (d + 1461) = yearOfEra d + 4 ∧ 300 ≤ yearOfEra d ∧ yearOfEra d < 396 := by
  by_cases last : d + 1461 = 146096
  · obtain rfl : d = 144635 := by omega
    decide
  · have centuries : d / 36524 = 3 ∧ (d + 1461) / 36524 = 3 ∧ d / 146096 = 0 ∧ (d + 1461) / 146096 = 0 := by omega
    simp only [yearOfEra, Nat.reduceSub, centuries.1, centuries.2.1, centuries.2.2.1, centuries.2.2.2, Nat.sub_zero]
    omega

theorem yearOfEraAcross {e : Nat} (inside : e < 1461) :
    yearOfEra (144636 + e) = yearOfEra e + 396 ∧ yearOfEra e ≤ 3 := by
  by_cases last : e = 1460
  · subst last; decide
  · have centuries : (144636 + e) / 36524 = 3 ∧ (144636 + e) / 146096 = 0 ∧ e / 36524 = 0 ∧ e / 146096 = 0 := by
      omega
    simp only [yearOfEra, Nat.reduceSub, centuries.1, centuries.2.1, centuries.2.2.1, centuries.2.2.2, Nat.add_zero,
      Nat.sub_zero]
    omega

theorem dayOfYearShift (d y : Nat) (century : y / 100 = (y + 4) / 100) :
    dayOfYear (d + 1461) (y + 4) = dayOfYear d y := by
  simp only [dayOfYear]
  omega

theorem dayOfYearAcross (e y : Nat) (first : y ≤ 3) : dayOfYear (144636 + e) (y + 396) = dayOfYear e y := by
  simp only [dayOfYear]
  omega

theorem civilShift {x : Nat} (after : 3652 ≤ x) (before : x + 1461 < 47541) :
    civilYearDay (x + 1461) = ((civilYearDay x).1 + 4, (civilYearDay x).2) := by
  simp only [civilYearDay]
  rcases Nat.lt_or_ge (x + 1461 + 719468) 730485 with early | late
  · have eras : (x + 719468) / 146097 = 4 ∧ (x + 1461 + 719468) / 146097 = 4 := by omega
    obtain ⟨shift, low, high⟩ := @yearOfEraLastCentury (x + 135080) (by omega) (by omega)
    rw [eras.1, eras.2, show x + 1461 + 719468 - 4 * 146097 = x + 135080 + 1461 by omega,
      show x + 719468 - 4 * 146097 = x + 135080 by omega, shift, dayOfYearShift _ _ (by omega)]
  · rcases Nat.lt_or_ge (x + 719468) 730485 with across | bothLate
    · have eras : (x + 719468) / 146097 = 4 ∧ (x + 1461 + 719468) / 146097 = 5 := by omega
      obtain ⟨shift, first⟩ := @yearOfEraAcross (x - 9556) (by omega)
      rw [eras.1, eras.2, show x + 1461 + 719468 - 5 * 146097 = x - 9556 by omega,
        show x + 719468 - 4 * 146097 = 144636 + (x - 9556) by omega, shift, dayOfYearAcross _ _ first]
    · have eras : (x + 719468) / 146097 = 5 ∧ (x + 1461 + 719468) / 146097 = 5 := by omega
      obtain ⟨shift, small⟩ := @yearOfEraFirstCentury (x - 11017) (by omega)
      rw [eras.1, eras.2, show x + 1461 + 719468 - 5 * 146097 = x - 11017 + 1461 by omega,
        show x + 719468 - 5 * 146097 = x - 11017 by omega, shift, dayOfYearShift _ _ (by omega)]

theorem civilShiftCycles {r year day : Nat} (start : civilYearDay (3652 + r) = (year, day)) (q : Nat)
    (before : 3652 + r + 1461 * q < 47541) : civilYearDay (3652 + r + 1461 * q) = (year + 4 * q, day) := by
  induction q with
  | zero => simpa using start
  | succ q ih =>
    rw [Nat.mul_succ, ← Nat.add_assoc] at before ⊢
    rw [civilShift (Nat.le_add_right_of_le (Nat.le_add_right _ _)) before,
      ih (Nat.lt_of_le_of_lt (Nat.le_add_right _ _) before), Nat.mul_succ, Nat.add_assoc]

theorem civilDateYears (year dayOfYear k : Nat) (calendar : 1980 ≤ year + dayOfYear / 306) (inYear : dayOfYear < 366) :
    civilDate (year + k, dayOfYear) = { civilDate (year, dayOfYear) with year := (civilDate (year, dayOfYear)).year + k } := by
  simp only [civilDate]
  split_ifs <;> simp only [Date.mk.injEq, true_and] <;> omega

/-! ### Against to_datetime -/

theorem civilCycleChecked : ∀ r : Fin 1461,
    civilDate (civilYearDay (3652 + r)) = dateOfDays r ∧
      1980 ≤ (civilYearDay (3652 + r)).1 + (civilYearDay (3652 + r)).2 / 306 ∧ (civilYearDay (3652 + r)).2 < 366 := by
  decide +kernel

theorem civilDateEq {n : Nat} (before : n < 43889) : civilDate (civilYearDay (3652 + n)) = dateOfDays n := by
  have split : n = 1461 * (n / 1461) + n % 1461 := (Nat.div_add_mod n 1461).symm
  have small : n % 1461 < 1461 := Nat.mod_lt _ (by omega)
  obtain ⟨checked, calendar, inYear⟩ := civilCycleChecked ⟨n % 1461, small⟩
  generalize start : civilYearDay (3652 + n % 1461) = first at checked calendar inYear
  obtain ⟨year, day⟩ := first
  have within : 3652 + n % 1461 + 1461 * (n / 1461) < 47541 := by omega
  rw [split, dateOfDaysCycle _ small, show 3652 + (1461 * (n / 1461) + n % 1461) = 3652 + n % 1461 + 1461 * (n / 1461) by
    omega, civilShiftCycles start _ within, civilDateYears _ _ _ calendar inYear, checked]

theorem fromUnixEpochTime (seconds : UInt32) :
    (DateTime.fromUnixEpoch seconds).time = timeOfDay (seconds.toNat % secondsInDay) := by
  simp only [DateTime.fromUnixEpoch, timeOfDay, secondsInDay, Time.mk.injEq]
  omega

theorem fromUnixEpochAgrees (s : UInt32) (after : 315532800 ≤ s.toNat)
    (before : s.toNat < 315532800 + (⟨1, 3, 120⟩ : Date).daysSinceEpoch * secondsInDay) :
    DateTime.fromUnixEpoch s = Timestamp.toDatetime ⟨s - 315532800⟩ := by
  rw [march2100, secondsInDay] at before
  have shifted : (s - 315532800).toNat = s.toNat - 315532800 :=
    UInt32.toNat_sub_of_le _ _ (UInt32.le_iff_toNat_le.mpr after)
  have days : s.toNat / secondsInDay = 3652 + (s.toNat - 315532800) / secondsInDay := by
    simp only [secondsInDay]; omega
  have within : (s.toNat - 315532800) / secondsInDay < 43889 := by
    simp only [secondsInDay]; omega
  have date : (DateTime.fromUnixEpoch s).date = dateOfDays ((s - 315532800).toNat / secondsInDay) := by
    rw [shifted, ← civilDateEq within, ← days]
    rfl
  have time : (DateTime.fromUnixEpoch s).time = timeOfDay ((s - 315532800).toNat % secondsInDay) := by
    have remainder : s.toNat % secondsInDay = (s.toNat - 315532800) % secondsInDay := by
      simp only [secondsInDay]; omega
    rw [fromUnixEpochTime, shifted, remainder]
  simp only [Timestamp.toDatetime, Timestamp.toDaysWithRemainder, ← date, ← time]

theorem fromUnixEpochMarch2000 :
    315532800 ≤ (951868800 : UInt32).toNat ∧
      (951868800 : UInt32).toNat < 315532800 + (⟨1, 3, 120⟩ : Date).daysSinceEpoch * secondsInDay ∧
      DateTime.fromUnixEpoch 951868800 = Timestamp.toDatetime ⟨951868800 - 315532800⟩ :=
  have before : (951868800 : UInt32).toNat < 315532800 + (⟨1, 3, 120⟩ : Date).daysSinceEpoch * secondsInDay := by
    rw [march2100]; decide
  ⟨by decide, before, fromUnixEpochAgrees 951868800 (by decide) before⟩

end ImmDosNx.Time
