import Karst.Hash
import Karst.Proofs.Mixing

/-!
FNV-1a tells any two runs of four bytes apart, whatever it has taken in before. A byte moves the
hash by less than 256 and multiplies it by `2 ^ 40 + 435`, so that two runs from one hash end as far
apart as the value of a polynomial there, whose coefficients are the differences of the moves. With
coefficients this small the value is a multiple of `2 ^ 64` only if all of them are zero.
-/

namespace Karst.Fnv

open Function

/-! ## Small polynomials -/

section Polynomials

variable {a b c d first second slope n : Int}

theorem value_eq_zero (aSmall : |a| ≤ 510) (bSmall : |b| ≤ 510) (cSmall : |c| ≤ 510)
    (dSmall : |d| ≤ 510)
    (dual : ((a * 435 + b) * 435 + c) * 435 + d + slope * 2 ^ 40 = 2 ^ 64 * n) :
    ((a * 435 + b) * 435 + c) * 435 + d = 0 := by
  rw [abs_le] at *
  omega

theorem abs_le_one_of_next (small : |d| ≤ 510) (next : |second * 435 + d| ≤ 1) : |second| ≤ 1 := by
  rw [abs_le] at *
  omega

theorem eq_zero_of_slope (aSmall : |a| ≤ 1) (firstSmall : |first| ≤ 1) (secondSmall : |second| ≤ 1)
    (whole : (a * 435 + first) * 435 + second = 2 ^ 24 * n) :
    a = 0 ∧ first = 0 ∧ second = 0 := by
  rw [abs_le] at *
  obtain rfl : n = 0 := by omega
  have last : second = 0 := by omega
  have middle : first = 0 := by omega
  exact ⟨by omega, middle, last⟩

theorem coefficients_eq_zero (aSmall : |a| ≤ 510) (bSmall : |b| ≤ 510) (cSmall : |c| ≤ 510)
    (dSmall : |d| ≤ 510) (multiple : (2 ^ 64 : Int) ∣
      (((a * 1099511628211 + b) * 1099511628211 + c) * 1099511628211 + d) * 1099511628211) :
    a = 0 ∧ b = 0 ∧ c = 0 ∧ d = 0 := by
  have coprime : IsCoprime (2 ^ 64 : Int) 1099511628211 := by
    rw [Int.isCoprime_iff_gcd_eq_one]
    rfl
  obtain ⟨m, whole⟩ := coprime.dvd_of_dvd_mul_right multiple
  -- the square of `2 ^ 40` vanishes, which leaves the value at 435 and the derivative there
  obtain ⟨n, dual⟩ : ∃ n, ((a * 435 + b) * 435 + c) * 435 + d +
      ((a * 435 + (a * 435 + b)) * 435 + ((a * 435 + b) * 435 + c)) * 2 ^ 40 = 2 ^ 64 * n := by
    refine ⟨m - (a * 870 + (a * 435 + b) + a * 2 ^ 40) * 2 ^ 16, ?_⟩
    linear_combination whole
  have root := value_eq_zero aSmall bSmall cSmall dSmall dual
  -- 435 is a root, and the quotients by it stay below 2
  have secondSmall := abs_le_one_of_next dSmall (by rw [root]; decide)
  have firstSmall := abs_le_one_of_next cSmall secondSmall
  have leading := abs_le_one_of_next bSmall firstSmall
  obtain ⟨rfl, firstZero, secondZero⟩ :=
    eq_zero_of_slope (n := n) leading firstSmall secondSmall (by linarith)
  exact ⟨rfl, by linarith, by linarith, by linarith⟩

end Polynomials

/-! ## Bytes -/

variable {gap : Int} {h h' : UInt64}

theorem exists_masked (h : UInt64) (b : UInt8) :
    ∃ e : Int, |e| ≤ 255 ∧ ((h ^^^ b.toUInt64).toNat : Int) = h.toNat + e := by
  have high : (h ^^^ b.toUInt64).toNat / 2 ^ 8 = h.toNat / 2 ^ 8 := by
    rw [UInt64.toNat_xor, UInt8.toNat_toUInt64, Nat.xor_div_two_pow,
      Nat.div_eq_of_lt b.toNat_lt, Nat.xor_zero]
  refine ⟨(h ^^^ b.toUInt64).toNat - h.toNat, ?_, by omega⟩
  rw [abs_le]
  omega

theorem toNat_mul_prime (h : UInt64) :
    ((h * prime).toNat : Int) ≡ h.toNat * 1099511628211 [ZMOD 2 ^ 64] := by
  rw [UInt64.toNat_mul, show prime.toNat = 1099511628211 from rfl]
  push_cast
  exact Int.mod_modEq _ _

/-- How far apart two hashes are, up to whole turns of the word. -/
def Apart (gap : Int) (h h' : UInt64) : Prop := (h.toNat : Int) - h'.toNat ≡ gap [ZMOD 2 ^ 64]

theorem Apart.byte (apart : Apart gap h h') (b c : UInt8) : ∃ d : Int, |d| ≤ 510 ∧
    (d = 0 → h = h' → b = c) ∧ Apart ((gap + d) * 1099511628211) (byte h b) (byte h' c) := by
  obtain ⟨e, eSmall, left⟩ := exists_masked h b
  obtain ⟨e', eSmall', right⟩ := exists_masked h' c
  refine ⟨e - e', ?_, ?_, ?_⟩
  · rw [abs_le] at *
    omega
  · rintro same rfl
    have masked : b.toUInt64 ^^^ h = c.toUInt64 ^^^ h := by
      rw [UInt64.xor_comm _ h, UInt64.xor_comm _ h, ← UInt64.toNat_inj]
      omega
    exact UInt8.toUInt64_inj.1 (masked_injective h masked)
  · calc ((Fnv.byte h b).toNat : Int) - (Fnv.byte h' c).toNat
        ≡ (h ^^^ b.toUInt64).toNat * 1099511628211 - (h' ^^^ c.toUInt64).toNat * 1099511628211
          [ZMOD 2 ^ 64] := (toNat_mul_prime _).sub (toNat_mul_prime _)
      _ = (h.toNat - h'.toNat + (e - e')) * 1099511628211 := by
        rw [left, right]
        ring
      _ ≡ (gap + (e - e')) * 1099511628211 [ZMOD 2 ^ 64] := (apart.add_right _).mul_right _

theorem mul_prime_injective : Injective fun h => h * prime :=
  multiple_injective (show prime * 0xce965057aff6957b = 1 by decide)

theorem byte_left_injective (b : UInt8) : Injective fun h => byte h b :=
  mul_prime_injective.comp (masked_injective b.toUInt64)

theorem bytes_inj {a b c d a' b' c' d' : UInt8}
    (same : byte (byte (byte (byte h a) b) c) d = byte (byte (byte (byte h a') b') c') d') :
    a = a' ∧ b = b' ∧ c = c' ∧ d = d' := by
  have start : Apart 0 h h := by rw [Apart, sub_self]
  obtain ⟨x, xSmall, ofX, afterA⟩ := start.byte a a'
  obtain ⟨y, ySmall, ofY, afterB⟩ := afterA.byte b b'
  obtain ⟨z, zSmall, ofZ, afterC⟩ := afterB.byte c c'
  obtain ⟨w, wSmall, ofW, afterD⟩ := afterC.byte d d'
  rw [same, Apart, sub_self, zero_add] at afterD
  obtain ⟨xZero, yZero, zZero, wZero⟩ := coefficients_eq_zero xSmall ySmall zSmall wSmall
    (Int.modEq_zero_iff_dvd.1 afterD.symm)
  -- equal bytes so far leave equal hashes, from which the next byte is read off
  obtain rfl := ofX xZero rfl
  obtain rfl := ofY yZero rfl
  obtain rfl := ofZ zZero rfl
  exact ⟨rfl, rfl, rfl, ofW wZero rfl⟩

/-! ## Words -/

theorem word16_left_injective (w : UInt16) : Injective fun h => word16 h w :=
  (byte_left_injective _).comp (byte_left_injective _)

theorem eq_of_bytes {v w : UInt16} (low : v.toUInt8 = w.toUInt8)
    (high : (v >>> 8).toUInt8 = (w >>> 8).toUInt8) : v = w := by
  have vBound := v.toNat_lt
  have wBound := w.toNat_lt
  have eight : (8 : UInt16).toNat % 16 = 8 := rfl
  simp only [← UInt8.toNat_inj, UInt16.toNat_toUInt8, UInt16.toNat_shiftRight, eight,
    Nat.shiftRight_eq_div_pow] at low high
  rw [← UInt16.toNat_inj]
  omega

theorem words_inj {v w v' w' : UInt16} (same : word16 (word16 h v) w = word16 (word16 h v') w') :
    v = v' ∧ w = w' := by
  obtain ⟨low, high, low', high'⟩ := bytes_inj same
  exact ⟨eq_of_bytes low high, eq_of_bytes low' high'⟩

end Karst.Fnv
