import Mathlib

/-! The proleptic Gregorian calendar: the length of each month and year, the days
before a month or a year, and the count of days from 1 January of an epoch year
to a date. Over a run of years where the leap years are those divisible by four,
the years before a date follow the four-year cycle of 1461 days. -/
namespace Gregorian

def isLeapYear (year : Nat) : Bool := year % 4 == 0 && (year % 100 != 0 || year % 400 == 0)

def monthLength (leap : Bool) : Nat → Nat
  | 2 => if leap then 29 else 28
  | 4 | 6 | 9 | 11 => 30
  | _ => 31

def daysInMonth (year month : Nat) : Nat := monthLength (isLeapYear year) month

def daysInYear (year : Nat) : Nat := if isLeapYear year then 366 else 365

def daysBeforeYear (epoch years : Nat) : Nat := ((List.range years).map fun k => daysInYear (epoch + k)).sum

def daysBeforeMonth (leap : Bool) (month : Nat) : Nat :=
  ((List.range (month - 1)).map fun k => monthLength leap (k + 1)).sum

def cumulativeDays : List Nat := [0, 31, 59, 90, 120, 151, 181, 212, 243, 273, 304, 334]

structure Valid (year month day : Nat) : Prop where
  monthPos : 1 ≤ month
  monthLe : month ≤ 12
  dayPos : 1 ≤ day
  dayLe : day ≤ daysInMonth year month

instance (year month day : Nat) : Decidable (Valid year month day) :=
  decidable_of_iff (1 ≤ month ∧ month ≤ 12 ∧ 1 ≤ day ∧ day ≤ daysInMonth year month)
    ⟨fun ⟨a, b, c, d⟩ => ⟨a, b, c, d⟩, fun ⟨a, b, c, d⟩ => ⟨a, b, c, d⟩⟩

def daysSince (epoch year month day : Nat) : Nat :=
  daysBeforeYear epoch (year - epoch) + daysBeforeMonth (isLeapYear year) month + (day - 1)

theorem monthLengthLe (leap : Bool) (month : Nat) : monthLength leap month ≤ 31 := by
  unfold monthLength
  split
  · split <;> omega
  all_goals omega

theorem daysBeforeMonthLe : ∀ (leap : Bool) (month : Fin 13), daysBeforeMonth leap month ≤ 335 := by
  decide

theorem daysBeforeYearSucc (epoch years : Nat) :
    daysBeforeYear epoch (years + 1) = daysBeforeYear epoch years + daysInYear (epoch + years) := by
  simp [daysBeforeYear, List.range_succ]

theorem daysBeforeMonthEq : ∀ (leap : Bool) (month : Fin 13), 1 ≤ month.val →
    daysBeforeMonth leap month = cumulativeDays.getD (month - 1) 0 + if leap && 2 < month.val then 1 else 0 := by
  decide

theorem daysBeforeYearCycle {epoch n : Nat}
    (julian : ∀ k < n, isLeapYear (epoch + k) = (k % 4 == 0)) :
    daysBeforeYear epoch n = 1461 * (n / 4) + 365 * (n % 4) + if n % 4 > 0 then 1 else 0 := by
  induction n with
  | zero => rfl
  | succ n ih =>
    rw [daysBeforeYearSucc, ih fun k lt => julian k (by omega), daysInYear, julian n (by omega)]
    by_cases whole : n % 4 = 0
    · have next : (n + 1) % 4 > 0 := by omega
      simp only [whole, beq_self_eq_true, if_true, gt_iff_lt, Nat.lt_irrefl, if_false, next]
      omega
    · have part : n % 4 > 0 := by omega
      simp only [beq_iff_eq, whole, if_false, part, if_true]
      by_cases closes : (n + 1) % 4 = 0
      · rw [if_neg (by omega)]; omega
      · rw [if_pos (by omega)]; omega

end Gregorian
