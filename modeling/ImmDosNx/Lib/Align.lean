import Mathlib.Data.Nat.Bitwise

/-! Rounding a 32-bit value down to a multiple of `2 ^ n` by masking off its low
bits, as page and sector arithmetic does with `x & !(size - 1)`, and keeping only
the low bits, as `x & (size - 1)` does; and counters that run free and wrap,
read modulo a divisor of `2 ^ 32`. -/
namespace Align

theorem andHighMask {x n : Nat} (below : x < 2 ^ 32) (small : n ≤ 32) :
    x &&& (2 ^ (32 - n) - 1) * 2 ^ n = x / 2 ^ n * 2 ^ n := by
  apply Nat.eq_of_testBit_eq
  intro j
  rw [Nat.testBit_and, Nat.testBit_mul_two_pow, Nat.testBit_mul_two_pow, Nat.testBit_div_two_pow,
    Nat.testBit_two_pow_sub_one]
  by_cases low : n ≤ j
  · rw [Nat.sub_add_cancel low]
    by_cases high : j < 32
    · simp [low, show j - n < 32 - n by omega]
    · have beyond : x.testBit j = false :=
        Nat.testBit_eq_false_of_lt (Nat.lt_of_lt_of_le below (Nat.pow_le_pow_right (by omega) (by omega)))
      simp [beyond]
  · simp [low]

theorem toNatAndHighMask (x m : UInt32) {n : Nat} (small : n ≤ 32) (mask : m.toNat = (2 ^ (32 - n) - 1) * 2 ^ n) :
    (x &&& m).toNat = x.toNat / 2 ^ n * 2 ^ n := by
  rw [UInt32.toNat_and, mask, andHighMask x.toNat_lt small]

theorem toNatAndLowMask (x m : UInt32) {n : Nat} (mask : m.toNat = 2 ^ n - 1) : (x &&& m).toNat = x.toNat % 2 ^ n := by
  rw [UInt32.toNat_and, mask, Nat.and_two_pow_sub_one_eq_mod]

theorem addToNatMod (x y : UInt32) {c : Nat} (divides : c ∣ 2 ^ 32) :
    (x + y).toNat % c = (x.toNat + y.toNat) % c := by
  rw [UInt32.toNat_add, Nat.mod_mod_of_dvd _ divides]

theorem distanceToNatMod (x y : UInt32) {c : Nat} (divides : c ∣ 2 ^ 32) :
    y.toNat % c = (x.toNat + (y - x).toNat) % c := by
  have back : x + (y - x) = y := by grind
  rw [← addToNatMod x (y - x) divides, back]

theorem distanceAfterFirst (x y n : UInt32) (within : n.toNat ≤ (y - x).toNat) :
    (y - (x + n)).toNat = (y - x).toNat - n.toNat := by
  have shifted : y - (x + n) = y - x - n := by grind
  rw [shifted, UInt32.toNat_sub_of_le _ _ (UInt32.le_iff_toNat_le.mpr within)]

theorem distanceAfterSecond (x y n : UInt32) (fits : (y - x).toNat + n.toNat < 2 ^ 32) :
    (y + n - x).toNat = (y - x).toNat + n.toNat := by
  have grown : y + n - x = y - x + n := by grind
  rw [grown, UInt32.toNat_add, Nat.mod_eq_of_lt fits]

end Align
