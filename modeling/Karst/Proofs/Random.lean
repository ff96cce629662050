import Mathlib
import Karst.Random.Stream

namespace Karst.Stream

/-- The high word of a product is below the other factor, even with a carry from the low word where
one can come in. -/
theorem high_word {w n : Nat} (word : w < 2 ^ 32) (positive : 0 < n) :
    w * n / 2 ^ 32 < n ∧ (2 ^ 32 - n < w * n % 2 ^ 32 → w * n / 2 ^ 32 + 1 < n) := by
  have split := Nat.div_add_mod (w * n) (2 ^ 32)
  have bound : w * n ≤ (2 ^ 32 - 1) * n := Nat.mul_le_mul_right n (by omega)
  constructor
  · exact Nat.div_lt_of_lt_mul (Nat.mul_lt_mul_of_pos_right word positive)
  · intro low
    omega

theorem below_zero (s : Stream) : (s.below 0).1 = 0 := rfl

theorem below_lt (s : Stream) {n : UInt32} (positive : 0 < n) : (s.below n).1 < n := by
  rw [below, if_neg (by rintro rfl; exact absurd positive (by decide))]
  generalize s.nextUInt32 = drawn
  obtain ⟨w, s⟩ := drawn
  rw [UInt32.lt_iff_toNat_lt, UInt32.toNat_zero] at positive
  have bound := n.toNat_lt
  have whole : w.toNat * n.toNat < 2 ^ 32 * 2 ^ 32 := Nat.mul_lt_mul'' w.toNat_lt bound
  have product : (w.toUInt64 * n.toUInt64).toNat = w.toNat * n.toNat := by
    rw [UInt64.toNat_mul, UInt32.toNat_toUInt64, UInt32.toNat_toUInt64]
    exact Nat.mod_eq_of_lt whole
  obtain ⟨less, carried⟩ := high_word w.toNat_lt positive
  have high : ((w.toUInt64 * n.toUInt64) >>> 32).toUInt32.toNat = w.toNat * n.toNat / 2 ^ 32 := by
    rw [UInt64.toNat_toUInt32, UInt64.toNat_shiftRight, product, Nat.shiftRight_eq_div_pow]
    exact Nat.mod_eq_of_lt (Nat.div_lt_of_lt_mul whole)
  have low : (w.toUInt64 * n.toUInt64).toUInt32.toNat = w.toNat * n.toNat % 2 ^ 32 := by
    rw [UInt64.toNat_toUInt32, product]
  have gap : (0 - n).toNat = 2 ^ 32 - n.toNat := by
    rw [UInt32.toNat_sub, UInt32.toNat_zero, Nat.add_zero]
    exact Nat.mod_eq_of_lt (by omega)
  have kept : ((w.toUInt64 * n.toUInt64) >>> 32).toUInt32 < n := by
    rwa [UInt32.lt_iff_toNat_lt, high]
  dsimp only
  split
  case isFalse => exact kept
  case isTrue near =>
    rw [UInt32.lt_iff_toNat_lt, gap, low] at near
    dsimp only
    split
    case isTrue => exact kept
    case isFalse =>
      have next := carried near
      rw [UInt32.lt_iff_toNat_lt, UInt32.toNat_add, high, UInt32.toNat_one,
        Nat.mod_eq_of_lt (by omega)]
      exact next

theorem below_le (s : Stream) (n : UInt32) : (s.below n).1 ≤ n := by
  by_cases zero : n = 0
  · rw [zero, below_zero]
    exact UInt32.le_refl 0
  · exact UInt32.le_of_lt (s.below_lt (UInt32.pos_iff_ne_zero.2 zero))

theorem below_lt_max (s : Stream) (n : UInt32) : (s.below n).1.toNat < max 1 n.toNat := by
  by_cases zero : n = 0
  · rw [zero, below_zero]
    decide
  · have less := s.below_lt (UInt32.pos_iff_ne_zero.2 zero)
    rw [UInt32.lt_iff_toNat_lt] at less
    exact lt_max_of_lt_right less

end Karst.Stream
