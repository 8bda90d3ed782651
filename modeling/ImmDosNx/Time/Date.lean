import ImmDosNx.Lib.Gregorian

/-! Dates and times of the kernel clock (`time/date.rs`, `time/timestamp.rs`). A
`Timestamp` counts the seconds since midnight on 1 January 1980 in a `u32`; a
`Date` counts its year from 1980 and its month and day from 1. The fields of a
`Date` and a `Time` are `u8`: they are numbers here, since every value the
conversions produce is below 256. `from_datetime` computes in `u32`, so its sum
wraps; an index outside the month table is a panic, `none`. -/
namespace ImmDosNx.Time

structure Timestamp where
  val : UInt32
  deriving DecidableEq, Repr

structure Date where
  day : Nat
  month : Nat
  year : Nat
  deriving DecidableEq, Repr

end ImmDosNx.Time

namespace ImmDosNx

structure Time where
  hours : Nat
  minutes : Nat
  seconds : Nat
  deriving DecidableEq, Repr

end ImmDosNx

namespace ImmDosNx.Time

structure DateTime where
  date : Date
  time : Time
  deriving DecidableEq, Repr

def secondsInDay : Nat := 60 * 60 * 24

def monthStartOffset : List Nat := [0, 31, 59, 90, 120, 151, 181, 212, 243, 273, 304, 334]

def yearOffsetFromDays (days : Nat) : Nat :=
  let hundredths := days * 100
  hundredths / 36525

def findMonth (yearDays : Nat) (leapYear : Bool) : Nat → Nat → Nat → Nat × Nat
  | 0, month, leap => (month, leap)
  | fuel + 1, month, leap =>
    if month < 12 && monthStartOffset.getD month 0 + leap ≤ yearDays then
      let month := month + 1
      findMonth yearDays leapYear fuel month (if month == 2 && leapYear then 1 else leap)
    else (month, leap)

def dateOfDays (days : Nat) : Date :=
  let yearOffset := yearOffsetFromDays days
  let quadrennialDays := days % (365 + 365 + 365 + 366)
  let yearDays := if quadrennialDays > 365 then (quadrennialDays - 366) % 365 else quadrennialDays
  let (month, leap) := findMonth yearDays (yearOffset % 4 == 0) 12 0 0
  let day := yearDays + 1 - monthStartOffset.getD (month - 1) 0
  let day := if month > 2 then day - leap else day
  ⟨day, month, yearOffset⟩

def timeOfDay (rawTime : Nat) : Time :=
  let totalMinutes := rawTime / 60
  let seconds := rawTime % 60
  let hours := totalMinutes / 60
  let minutes := totalMinutes % 60
  ⟨hours, minutes, seconds⟩

namespace Timestamp

def toDaysWithRemainder (t : Timestamp) : Nat × Nat := (t.val.toNat / secondsInDay, t.val.toNat % secondsInDay)

def toDatetime (t : Timestamp) : DateTime :=
  let (days, rawTime) := t.toDaysWithRemainder
  ⟨dateOfDays days, timeOfDay rawTime⟩

def fromDatetime (dt : DateTime) : Option Timestamp :=
  if dt.date.month = 0 ∨ 12 < dt.date.month then none
  else
    let quadrennials := dt.date.year / 4
    let yearRemainder := dt.date.year % 4
    let days := quadrennials * (366 + 365 + 365 + 365) + yearRemainder * 365
    let days := if yearRemainder > 0 then days + 1 else days
    let days := days + monthStartOffset.getD (dt.date.month - 1) 0
    let days := days + dt.date.day
    let timestamp := days * secondsInDay + dt.time.hours * 60 * 60 + dt.time.minutes * 60 + dt.time.seconds
    some ⟨timestamp.toUInt32⟩

end Timestamp

structure TimestampHires where
  val : UInt64
  deriving DecidableEq, Repr

def TimestampHires.fromTimestamp (ts : Timestamp) : TimestampHires := ⟨ts.val.toUInt64 * 10000000⟩

/-! ### The calendar the conversions are meant to follow -/

namespace Date

def Valid (d : Date) : Prop := Gregorian.Valid (1980 + d.year) d.month d.day

instance (d : Date) : Decidable d.Valid := inferInstanceAs (Decidable (Gregorian.Valid _ _ _))

def daysSinceEpoch (d : Date) : Nat := Gregorian.daysSince 1980 (1980 + d.year) d.month d.day

end Date

def secondsOfDay (t : Time) : Nat := t.hours * 3600 + t.minutes * 60 + t.seconds

theorem fromTimestampToNat (ts : Timestamp) : (TimestampHires.fromTimestamp ts).val.toNat = ts.val.toNat * 10000000 := by
  have small := ts.val.toNat_lt
  simp only [TimestampHires.fromTimestamp, UInt64.toNat_mul, UInt32.toNat_toUInt64]
  exact Nat.mod_eq_of_lt (by simp; omega)

theorem monthStartOffsetEq : monthStartOffset = Gregorian.cumulativeDays := rfl

theorem julianFrom1980 : ∀ k : Fin 120, Gregorian.isLeapYear (1980 + k.val) = (k.val % 4 == 0) := by
  decide

theorem daysBeforeYearFrom1980 {years : Nat} (before : years ≤ 120) :
    Gregorian.daysBeforeYear 1980 years = 1461 * (years / 4) + 365 * (years % 4) + if years % 4 > 0 then 1 else 0 :=
  Gregorian.daysBeforeYearCycle fun k lt => julianFrom1980 ⟨k, by omega⟩

/-! ### to_datetime, one four-year cycle at a time -/

theorem dateOfDaysCycle (q : Nat) {r : Nat} (small : r < 1461) :
    dateOfDays (1461 * q + r) = { dateOfDays r with year := (dateOfDays r).year + 4 * q } := by
  have offset : yearOffsetFromDays (1461 * q + r) = yearOffsetFromDays r + 4 * q := by
    simp only [yearOffsetFromDays]; omega
  have within : (1461 * q + r) % (365 + 365 + 365 + 366) = r % (365 + 365 + 365 + 366) := by omega
  have leapSame : (yearOffsetFromDays r + 4 * q) % 4 = yearOffsetFromDays r % 4 := by omega
  simp only [dateOfDays, offset, within, leapSame]

theorem cycleChecked : ∀ r : Fin 1461, let d := dateOfDays r
    d.year ≤ 3 ∧ 1 ≤ d.month ∧ d.month ≤ 12 ∧ 1 ≤ d.day ∧ d.day ≤ Gregorian.monthLength (d.year == 0) d.month ∧
      365 * d.year + (if d.year > 0 then 1 else 0) + Gregorian.daysBeforeMonth (d.year == 0) d.month + (d.day - 1) =
        r.val ∧
      (r.val < 59 → d.year = 0 ∧ d.day ≤ Gregorian.monthLength false d.month ∧
        Gregorian.daysBeforeMonth false d.month = Gregorian.daysBeforeMonth true d.month) := by
  decide +kernel

theorem leapInCycle {q k : Nat} (small : k ≤ 3) (before : 4 * q + k < 120) :
    Gregorian.isLeapYear (1980 + (k + 4 * q)) = (k == 0) := by
  rw [show k + 4 * q = 4 * q + k by omega, julianFrom1980 ⟨4 * q + k, before⟩]
  by_cases zero : k = 0
  · simp [zero]
  · simp [zero]; omega

theorem timeOfDaySpec {rawTime : Nat} (small : rawTime < secondsInDay) :
    (timeOfDay rawTime).secondsOfDay = rawTime ∧ (timeOfDay rawTime).hours < 24 ∧
      (timeOfDay rawTime).minutes < 60 ∧ (timeOfDay rawTime).seconds < 60 := by
  simp only [timeOfDay, Time.secondsOfDay, secondsInDay] at small ⊢
  omega

theorem march2100 : (⟨1, 3, 120⟩ : Date).daysSinceEpoch = 43889 := by
  simp only [Date.daysSinceEpoch, Gregorian.daysSince, Nat.add_sub_cancel_left,
    daysBeforeYearFrom1980 (Nat.le_refl 120)]
  decide

theorem dateOfDaysGregorian {days : Nat} (before : days < (⟨1, 3, 120⟩ : Date).daysSinceEpoch) :
    (dateOfDays days).Valid ∧ (dateOfDays days).daysSinceEpoch = days ∧ (dateOfDays days).year ≤ 120 := by
  rw [march2100] at before
  have split : days = 1461 * (days / 1461) + days % 1461 := (Nat.div_add_mod days 1461).symm
  have small : days % 1461 < 1461 := Nat.mod_lt _ (by omega)
  obtain ⟨yearSmall, monthPos, monthLe, dayPos, dayLe, total, early⟩ := cycleChecked ⟨days % 1461, small⟩
  simp only at yearSmall monthPos monthLe dayPos dayLe total early
  rw [split, dateOfDaysCycle _ small]
  simp only [Date.Valid, Date.daysSinceEpoch, Gregorian.daysSince]
  have whole : (4 * (days / 1461) + (dateOfDays (days % 1461)).year) / 4 = days / 1461 := by omega
  have part : (4 * (days / 1461) + (dateOfDays (days % 1461)).year) % 4 = (dateOfDays (days % 1461)).year := by
    omega
  rw [show 1980 + ((dateOfDays (days % 1461)).year + 4 * (days / 1461)) - 1980 =
      4 * (days / 1461) + (dateOfDays (days % 1461)).year by omega,
    daysBeforeYearFrom1980 (by omega), whole, part]
  by_cases inCentury : 4 * (days / 1461) + (dateOfDays (days % 1461)).year < 120
  · have leap := leapInCycle yearSmall inCentury
    refine ⟨⟨monthPos, monthLe, dayPos, ?_⟩, ?_, by omega⟩
    · rw [Gregorian.daysInMonth, leap]; exact dayLe
    · rw [leap]; omega
  · have last : days / 1461 = 30 := by omega
    obtain ⟨firstYear, dayLe2100, sameBefore⟩ := early (by omega)
    have leap : Gregorian.isLeapYear (1980 + ((dateOfDays (days % 1461)).year + 4 * (days / 1461))) = false := by
      rw [last, firstYear]; rfl
    refine ⟨⟨monthPos, monthLe, dayPos, ?_⟩, ?_, by omega⟩
    · rw [Gregorian.daysInMonth, leap]; exact dayLe2100
    · rw [leap, sameBefore]
      simp only [firstYear, beq_self_eq_true] at total ⊢
      omega

theorem toDatetimeGregorian (t : Timestamp)
    (before : t.val.toNat < (⟨1, 3, 120⟩ : Date).daysSinceEpoch * secondsInDay) :
    t.toDatetime.date.Valid ∧ t.toDatetime.date.daysSinceEpoch = t.val.toNat / secondsInDay ∧
      t.toDatetime.time.secondsOfDay = t.val.toNat % secondsInDay ∧ t.toDatetime.time.hours < 24 ∧
      t.toDatetime.time.minutes < 60 ∧ t.toDatetime.time.seconds < 60 := by
  have days : t.val.toNat / secondsInDay < (⟨1, 3, 120⟩ : Date).daysSinceEpoch :=
    Nat.div_lt_of_lt_mul (by rw [Nat.mul_comm]; exact before)
  obtain ⟨valid, since, -⟩ := dateOfDaysGregorian days
  obtain ⟨secondsOf, hours, minutes, seconds⟩ :=
    timeOfDaySpec (Nat.mod_lt t.val.toNat (by decide : secondsInDay > 0))
  exact ⟨valid, since, secondsOf, hours, minutes, seconds⟩

/-! ### from_datetime -/

theorem fromDatetimeEq (dt : DateTime) (valid : dt.date.Valid) (before : dt.date.year ≤ 120) :
    Timestamp.fromDatetime dt = some ⟨((dt.date.daysSinceEpoch +
      if Gregorian.isLeapYear (1980 + dt.date.year) && 2 < dt.date.month then 0 else 1) * secondsInDay +
        dt.time.secondsOfDay).toUInt32⟩ := by
  obtain ⟨monthPos, monthLe, dayPos, -⟩ := valid
  have months := Gregorian.daysBeforeMonthEq (Gregorian.isLeapYear (1980 + dt.date.year)) ⟨dt.date.month, by omega⟩ monthPos
  simp only at months
  have years := daysBeforeYearFrom1980 before
  unfold Timestamp.fromDatetime
  rw [if_neg (by omega)]
  simp only [Date.daysSinceEpoch, Gregorian.daysSince, Nat.add_sub_cancel_left, months, years, monthStartOffsetEq,
    Time.secondsOfDay, secondsInDay]
  apply congrArg (some ∘ Timestamp.mk ∘ Nat.toUInt32)
  clear months years
  split_ifs <;> omega

theorem roundTripSkipsDay :
    (∀ t : Timestamp, t.val.toNat < (⟨1, 3, 120⟩ : Date).daysSinceEpoch * secondsInDay →
      Timestamp.fromDatetime t.toDatetime =
        some ⟨(t.val.toNat + if Gregorian.isLeapYear (1980 + t.toDatetime.date.year) && 2 < t.toDatetime.date.month
          then 0 else secondsInDay).toUInt32⟩) ∧
    Timestamp.fromDatetime (Timestamp.toDatetime ⟨0⟩) = some ⟨86400⟩ := by
  refine ⟨fun t before => ?_, by decide⟩
  have days : t.val.toNat / secondsInDay < (⟨1, 3, 120⟩ : Date).daysSinceEpoch :=
    Nat.div_lt_of_lt_mul (by rw [Nat.mul_comm]; exact before)
  obtain ⟨valid, since, secondsOf, -⟩ := toDatetimeGregorian t before
  rw [fromDatetimeEq _ valid (dateOfDaysGregorian days).2.2, since, secondsOf]
  apply congrArg (some ∘ Timestamp.mk ∘ Nat.toUInt32)
  have whole := Nat.div_add_mod t.val.toNat secondsInDay
  simp only [secondsInDay] at whole ⊢
  split_ifs <;> omega

end ImmDosNx.Time
