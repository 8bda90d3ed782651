import ImmDosNx.Time.Date

/-! The CMOS clock read at boot (`hardware/rtc.rs`, `initialize_from_rtc` in
`time/system.rs`). The port reads are the values of the registers. Register B
chooses BCD or binary fields (bit 2 clear is BCD) and a 12- or 24-hour clock
(bit 1 set is 24-hour, and in 12-hour mode bit 7 of the hour marks the
afternoon). In 24-hour BCD mode `read_time` keeps the hour as its BCD byte, and
`from_datetime` counts the day of the month from 1, so the system time is a day
late except in a leap year from March on. -/
namespace ImmDosNx.Rtc

open Time

structure Registers where
  seconds : UInt8
  minutes : UInt8
  hours : UInt8
  day : UInt8
  month : UInt8
  year : UInt8
  registerB : UInt8
  deriving DecidableEq, Repr

structure RTCTime where
  seconds : UInt8
  minutes : UInt8
  hours : UInt8
  day : UInt8
  month : UInt8
  year : UInt8
  deriving DecidableEq, Repr

def RTCTime.toDatetime (t : RTCTime) : DateTime :=
  ⟨⟨t.day.toNat, t.month.toNat, (t.year + 20).toNat⟩, ⟨t.hours.toNat, t.minutes.toNat, t.seconds.toNat⟩⟩

def convertBcd (bcd : UInt8) : UInt8 :=
  let tens := bcd >>> 4
  let ones := bcd &&& 0xf
  tens * 10 + ones

def twelveHour (decode : UInt8 → UInt8) (hours : UInt8) : UInt8 :=
  let pm := hours &&& 0x80 != 0
  let hours := decode (hours &&& 0x7f) % 12
  if pm then hours + 12 else hours

def readTime (r : Registers) : RTCTime :=
  let use24Hour := r.registerB &&& 2 == 2
  let useBcd := r.registerB &&& 4 == 0
  let time : RTCTime := ⟨r.seconds, r.minutes, r.hours, r.day, r.month, r.year⟩
  if useBcd then
    let time := { time with
      seconds := convertBcd time.seconds, minutes := convertBcd time.minutes, day := convertBcd time.day,
      month := convertBcd time.month, year := convertBcd time.year }
    if !use24Hour then { time with hours := twelveHour convertBcd time.hours } else time
  else if !use24Hour then { time with hours := twelveHour id time.hours } else time

/-- Here `none` is the panic of `from_datetime` on a month outside 1..12. -/
def initializeFromRtc (r : Registers) : Option TimestampHires :=
  (Timestamp.fromDatetime (readTime r).toDatetime).map TimestampHires.fromTimestamp

/-! ### The registers of a wall-clock time -/

structure WallClock where
  year : Nat
  month : Nat
  day : Nat
  hours : Nat
  minutes : Nat
  seconds : Nat
  deriving DecidableEq, Repr

structure WallClock.Valid (w : WallClock) : Prop where
  date : Gregorian.Valid w.year w.month w.day
  from2000 : 2000 ≤ w.year
  to2099 : w.year ≤ 2099
  hours : w.hours < 24
  minutes : w.minutes < 60
  seconds : w.seconds < 60

def WallClock.secondsSince1980 (w : WallClock) : Nat :=
  Gregorian.daysSince 1980 w.year w.month w.day * secondsInDay + w.hours * 3600 + w.minutes * 60 + w.seconds

def encodeField (bcd : Bool) (n : Nat) : UInt8 := if bcd then (n / 10 * 16 + n % 10).toUInt8 else n.toUInt8

def encodeHours (bcd use24Hour : Bool) (hours : Nat) : UInt8 :=
  if use24Hour then encodeField bcd hours
  else encodeField bcd (if hours % 12 = 0 then 12 else hours % 12) ||| if 12 ≤ hours then 0x80 else 0

def WallClock.registers (w : WallClock) (registerB : UInt8) : Registers :=
  let bcd := registerB &&& 4 == 0
  let use24Hour := registerB &&& 2 == 2
  ⟨encodeField bcd w.seconds, encodeField bcd w.minutes, encodeHours bcd use24Hour w.hours, encodeField bcd w.day,
    encodeField bcd w.month, encodeField bcd (w.year - 2000), registerB⟩

/-- The hour `read_time` returns: in 24-hour BCD mode the BCD byte read as binary. -/
def WallClock.hoursRead (w : WallClock) (registerB : UInt8) : Nat :=
  if (registerB &&& 4 == 0) && (registerB &&& 2 == 2) then w.hours / 10 * 16 + w.hours % 10 else w.hours

theorem convertBcdDigits : ∀ n : Fin 100, convertBcd (encodeField true n) = (n : Nat).toUInt8 := by
  decide

theorem convertBcdEncode {n : Nat} (small : n < 100) : convertBcd (encodeField true n) = n.toUInt8 :=
  convertBcdDigits ⟨n, small⟩

theorem twelveHourDigits : ∀ (bcd : Bool) (hours : Fin 24),
    twelveHour (if bcd then convertBcd else id) (encodeHours bcd false hours) = (hours : Nat).toUInt8 := by
  decide

theorem readTimeRegisters (w : WallClock) (registerB : UInt8) (valid : w.Valid) :
    readTime (w.registers registerB) = ⟨w.seconds.toUInt8, w.minutes.toUInt8, (w.hoursRead registerB).toUInt8,
      w.day.toUInt8, w.month.toUInt8, (w.year - 2000).toUInt8⟩ := by
  obtain ⟨⟨-, monthLe, -, dayLe⟩, -, to2099, hours, minutes, seconds⟩ := valid
  have dayLt : w.day < 100 := by
    have := Gregorian.monthLengthLe (Gregorian.isLeapYear w.year) w.month
    rw [Gregorian.daysInMonth] at dayLe
    omega
  have bcd12 := twelveHourDigits true ⟨w.hours, hours⟩
  have binary12 := twelveHourDigits false ⟨w.hours, hours⟩
  simp only [encodeHours, if_true, Bool.false_eq_true, if_false] at bcd12 binary12
  have fields : ∀ n, n < 100 → convertBcd (encodeField true n) = n.toUInt8 := fun _ => convertBcdEncode
  simp only [readTime, WallClock.registers, WallClock.hoursRead]
  by_cases bcd : (registerB &&& 4 == 0) = true <;> by_cases use24Hour : (registerB &&& 2 == 2) = true <;>
    simp only [bcd, use24Hour, encodeHours, if_true, Bool.false_eq_true, if_false, Bool.not_false, Bool.not_true,
      Bool.and_true, Bool.and_false]
  · rw [fields _ (by omega), fields _ (by omega), fields _ dayLt, fields _ (by omega), fields _ (by omega)]
    rfl
  · rw [fields _ (by omega), fields _ (by omega), fields _ dayLt, fields _ (by omega), fields _ (by omega), bcd12]
  · rfl
  · rw [binary12]
    rfl

theorem hoursReadLt {w : WallClock} (registerB : UInt8) (valid : w.Valid) : w.hoursRead registerB < 36 := by
  have := valid.hours
  unfold WallClock.hoursRead
  split <;> omega

theorem toDatetimeRegisters (w : WallClock) (registerB : UInt8) (valid : w.Valid) :
    (readTime (w.registers registerB)).toDatetime =
      ⟨⟨w.day, w.month, w.year - 1980⟩, ⟨w.hoursRead registerB, w.minutes, w.seconds⟩⟩ := by
  have hoursLt := hoursReadLt registerB valid
  have dayLt : w.day ≤ 31 := Nat.le_trans valid.date.dayLe (Gregorian.monthLengthLe _ _)
  have := valid.date.monthLe
  have := valid.from2000
  have := valid.to2099
  have := valid.minutes
  have := valid.seconds
  have twenty : (20 : UInt8).toNat = 20 := rfl
  rw [readTimeRegisters w registerB valid]
  simp only [RTCTime.toDatetime, DateTime.mk.injEq, Date.mk.injEq, Time.mk.injEq, UInt8.toNat_add, UInt8.toNat_ofNat',
    twenty]
  omega

theorem daysSinceBelow2100 {w : WallClock} (valid : w.Valid) : Gregorian.daysSince 1980 w.year w.month w.day ≤ 43830 := by
  have years := daysBeforeYearFrom1980 (show w.year - 1980 ≤ 120 by have := valid.to2099; omega)
  have months := Gregorian.daysBeforeMonthLe (Gregorian.isLeapYear w.year) ⟨w.month, by have := valid.date.monthLe; omega⟩
  have days := Nat.le_trans valid.date.dayLe (Gregorian.monthLengthLe _ _)
  have := valid.to2099
  simp only [Gregorian.daysSince, years] at months ⊢
  split at ⊢ <;> omega

theorem initializeFromRtcRegisters (w : WallClock) (registerB : UInt8) (valid : w.Valid) :
    ∃ hires, initializeFromRtc (w.registers registerB) = some hires ∧
      hires.val.toNat = 10000000 * ((Gregorian.daysSince 1980 w.year w.month w.day +
        if Gregorian.isLeapYear w.year && 2 < w.month then 0 else 1) * secondsInDay +
          w.hoursRead registerB * 3600 + w.minutes * 60 + w.seconds) := by
  have century : 1980 + (w.year - 1980) = w.year := by have := valid.from2000; omega
  have dateValid : (⟨w.day, w.month, w.year - 1980⟩ : Date).Valid := by
    rw [Date.Valid, century]
    exact valid.date
  have stamp := fromDatetimeEq ⟨⟨w.day, w.month, w.year - 1980⟩, ⟨w.hoursRead registerB, w.minutes, w.seconds⟩⟩ dateValid
    (by have := valid.to2099; dsimp only; omega)
  refine ⟨_, by rw [initializeFromRtc, toDatetimeRegisters w registerB valid, stamp, Option.map_some], ?_⟩
  have days := daysSinceBelow2100 valid
  have hoursLt := hoursReadLt registerB valid
  have := valid.minutes
  have := valid.seconds
  rw [fromTimestampToNat]
  simp only [Date.daysSinceEpoch, Time.secondsOfDay, century, UInt32.toNat_ofNat', secondsInDay]
  split <;> omega

theorem rtcBootTimeMisread :
    (∀ (w : WallClock) (registerB : UInt8), w.Valid →
      ∃ hires, initializeFromRtc (w.registers registerB) = some hires ∧
        hires.val.toNat = 10000000 * ((Gregorian.daysSince 1980 w.year w.month w.day +
          if Gregorian.isLeapYear w.year && 2 < w.month then 0 else 1) * secondsInDay +
            w.hoursRead registerB * 3600 + w.minutes * 60 + w.seconds)) ∧
      initializeFromRtc ((⟨2000, 1, 1, 0, 0, 0⟩ : WallClock).registers 6) = some ⟨7306 * 86400 * 10000000⟩ ∧
      (⟨2000, 1, 1, 0, 0, 0⟩ : WallClock).secondsSince1980 = 7305 * 86400 ∧
      initializeFromRtc ((⟨2000, 3, 1, 13, 0, 0⟩ : WallClock).registers 2) =
        some ⟨(7365 * 86400 + 19 * 3600) * 10000000⟩ ∧
      (⟨2000, 3, 1, 13, 0, 0⟩ : WallClock).secondsSince1980 = 7365 * 86400 + 13 * 3600 :=
  ⟨initializeFromRtcRegisters, by decide, by decide, by decide, by decide⟩

end ImmDosNx.Rtc
