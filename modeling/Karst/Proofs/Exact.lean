import Mathlib

/-!
The rational number that a double stands for. Comparing two doubles compares their numbers: binary64
writes each number with one significand and exponent, and of two such forms the greater exponent has
the greater number.
-/

namespace Karst

open Float.Model Float.Model.UnpackedFloat

/-- The form in which binary64 writes a number other than zero. -/
structure Canonical (significand : Nat) (exponent : Int) : Prop where
  fits : significand < 2 ^ 53
  least : -1074 ≤ exponent
  leads : exponent = -1074 ∨ 2 ^ 52 ≤ significand

def magnitude (significand : Nat) (exponent : Int) : ℚ := significand * 2 ^ exponent

theorem magnitude_pos {m : Nat} {e : Int} (pos : 0 < m) : 0 < magnitude m e := by
  unfold magnitude
  positivity

theorem Canonical.magnitude_lt {m n : Nat} {e f : Int} (first : Canonical m e)
    (second : Canonical n f) (less : e < f) : magnitude m e < magnitude n f := by
  have wide : (2 : ℚ) ^ 52 ≤ n := by
    have least := first.least
    have leads := second.leads
    exact_mod_cast (by omega : 2 ^ 52 ≤ n)
  have narrow : (m : ℚ) < 2 ^ 53 := by exact_mod_cast first.fits
  calc magnitude m e < 2 ^ 53 * 2 ^ e := by unfold magnitude; gcongr
    _ = 2 ^ 52 * 2 ^ (e + 1) := by rw [zpow_add₀ (by norm_num)]; ring
    _ ≤ n * 2 ^ f := by gcongr <;> [norm_num; omega]

theorem Canonical.compare_magnitude {m n : Nat} {e f : Int} (first : Canonical m e)
    (second : Canonical n f) :
    (compare e f).then (compare m n) = compare (magnitude m e) (magnitude n f) := by
  rcases lt_trichotomy e f with less | rfl | greater
  · rw [compare_lt_iff_lt.2 less, compare_lt_iff_lt.2 (first.magnitude_lt second less)]
    rfl
  · have scale : (0 : ℚ) < 2 ^ e := by positivity
    have strict : StrictMono fun k : Nat => magnitude k e := by
      intro k l less
      exact mul_lt_mul_of_pos_right (by exact_mod_cast less) scale
    rw [compare_eq_iff_eq.2 rfl, ← cmp_eq_compare m, ← cmp_eq_compare, ← strict.cmp_map_eq]
    rfl
  · rw [compare_gt_iff_gt.2 greater, compare_gt_iff_gt.2 (second.magnitude_lt first greater)]
    rfl

theorem compare_neg (q r : ℚ) : compare (-q) (-r) = (compare q r).swap := by
  rw [← cmp_eq_compare, ← cmp_eq_compare, cmp_swap]
  exact StrictAnti.cmp_map_eq (fun _ _ => neg_lt_neg) q r

inductive Written : UnpackedFloat → ℚ → Prop
  | zero (sign) : Written (.zero sign) 0
  | positive {m e} (canonical : Canonical m e) (pos) :
      Written (.finite .positive m e pos) (magnitude m e)
  | negative {m e} (canonical : Canonical m e) (pos) :
      Written (.finite .negative m e pos) (-magnitude m e)

theorem Written.compare {a b : UnpackedFloat} {q r : ℚ} (first : Written a q)
    (second : Written b r) : a.compare b = some (compare q r) := by
  cases first with
  | zero s =>
    cases second with
    | zero t => simp [UnpackedFloat.compare]
    | positive canonical pos =>
      simp [UnpackedFloat.compare, compare_lt_iff_lt.2 (magnitude_pos pos)]
    | negative canonical pos =>
      simp [UnpackedFloat.compare, compare_gt_iff_gt.2 (neg_lt_zero.2 (magnitude_pos pos))]
  | @positive m e here pos =>
    have above : 0 < magnitude m e := magnitude_pos pos
    cases second with
    | zero t => simp [UnpackedFloat.compare, compare_gt_iff_gt.2 above]
    | positive canonical pos => simp [UnpackedFloat.compare, here.compare_magnitude canonical]
    | @negative n f canonical pos =>
      have below : -magnitude n f < 0 := neg_lt_zero.2 (magnitude_pos pos)
      simp [UnpackedFloat.compare, compare_gt_iff_gt.2 (below.trans above)]
  | @negative m e here pos =>
    have below : -magnitude m e < 0 := neg_lt_zero.2 (magnitude_pos pos)
    cases second with
    | zero t => simp [UnpackedFloat.compare, compare_lt_iff_lt.2 below]
    | positive canonical pos =>
      simp [UnpackedFloat.compare, compare_lt_iff_lt.2 (below.trans (magnitude_pos pos))]
    | negative canonical pos =>
      simp [UnpackedFloat.compare, here.compare_magnitude canonical, compare_neg]

theorem Written.compare_infinity {a : UnpackedFloat} {q : ℚ} (written : Written a q) :
    a.compare (.infinity .positive) = some .lt ∧ a.compare (.infinity .negative) = some .gt ∧
      UnpackedFloat.compare (.infinity .positive) a = some .gt ∧
      UnpackedFloat.compare (.infinity .negative) a = some .lt := by
  cases written <;> simp [UnpackedFloat.compare]

theorem compare_notANumber (a : UnpackedFloat) : a.compare .notANumber = none := by
  cases a <;> rfl

theorem toNat_implicit (v : BitVec 52) : (1#1 ++ v).toNat = 2 ^ 52 + v.toNat := by
  rw [BitVec.toNat_append, ← Nat.shiftLeft_add_eq_or_of_lt v.isLt]
  rfl

theorem canonical_unpack {x : Float.Model} {sign : Sign} {m : Nat} {e : Int} {pos : 0 < m}
    (unpacked : x.unpack = .finite sign m e pos) : Canonical m e := by
  unfold Float.Model.unpack UnpackedFloat.unpack at unpacked
  have short : (@unpackMantissa .binary64 x.toBits.toBitVec).toNat < 2 ^ 52 :=
    (@unpackMantissa .binary64 x.toBits.toBitVec).isLt
  have bias : Format.binary64.exponentBias = 1023 := rfl
  dsimp only at unpacked
  split at unpacked
  · split at unpacked <;> cases unpacked
  · split at unpacked
    case isTrue subnormal =>
      split at unpacked
      · cases unpacked
      · cases unpacked
        simp only [subnormal, bias]
        exact ⟨by omega, by simp, by simp⟩
    case isFalse normal =>
      cases unpacked
      have raised : (@unpackExponent .binary64 x.toBits.toBitVec).toNat ≠ 0 :=
        fun zero => normal (BitVec.toNat_inj.1 zero)
      simp only [bias]
      refine ⟨?_, by omega, .inr ?_⟩
      · rw [toNat_implicit]
        omega
      · rw [toNat_implicit]
        omega

/-! ## Doubles -/

def rational? (x : Float) : Option ℚ :=
  match x.toModel.unpack with
  | .infinity _ => none
  | .notANumber => none
  | .zero _ => some 0
  | .finite .positive m e _ => some (magnitude m e)
  | .finite .negative m e _ => some (-magnitude m e)

theorem written_of_rational {x : Float} {q : ℚ} (reads : rational? x = some q) :
    Written x.toModel.unpack q := by
  unfold rational? at reads
  split at reads
  case h_1 => cases reads
  case h_2 => cases reads
  case h_3 sign unpacked =>
    cases reads
    rw [unpacked]
    exact .zero sign
  case h_4 m e pos unpacked =>
    cases reads
    rw [unpacked]
    exact .positive (canonical_unpack unpacked) pos
  case h_5 m e pos unpacked =>
    cases reads
    rw [unpacked]
    exact .negative (canonical_unpack unpacked) pos

theorem rational_cases (x : Float) : x.toModel.unpack = .infinity .positive ∨
    x.toModel.unpack = .infinity .negative ∨ x.toModel.unpack = .notANumber ∨
    ∃ q, rational? x = some q := by
  unfold rational?
  cases x.toModel.unpack with
  | infinity sign => cases sign <;> simp
  | notANumber => simp
  | zero sign => simp
  | finite sign m e pos => cases sign <;> simp

theorem lt_iff (x y : Float) : x < y ↔ x.toModel.unpack.compare y.toModel.unpack = some .lt := by
  have unfolded : x < y ↔ x.toModel.unpack.lt y.toModel.unpack = true := decide_eq_true_iff
  rw [unfolded, UnpackedFloat.lt, beq_iff_eq]

theorem le_iff (x y : Float) : x ≤ y ↔
    ∃ o, x.toModel.unpack.compare y.toModel.unpack = some o ∧ o ≠ .gt := by
  have unfolded : x ≤ y ↔ x.toModel.unpack.le y.toModel.unpack = true := decide_eq_true_iff
  simp only [unfolded, UnpackedFloat.le, Option.any_eq_true, Ordering.isLE_iff_ne_gt]

variable {x y low high : Float} {q r : ℚ}

theorem lt_iff_of_rational (left : rational? x = some q) (right : rational? y = some r) :
    x < y ↔ q < r := by
  rw [lt_iff, (written_of_rational left).compare (written_of_rational right), Option.some_inj,
    compare_lt_iff_lt]

theorem le_iff_of_rational (left : rational? x = some q) (right : rational? y = some r) :
    x ≤ y ↔ q ≤ r := by
  simp [le_iff, (written_of_rational left).compare (written_of_rational right), compare_le_iff_le]

theorem rational_of_between (least : rational? low = some q) (most : rational? high = some r)
    (above : low < x) (rises : x ≤ y) (below : ¬ high < y) :
    (∃ s, rational? x = some s) ∧ ∃ t, rational? y = some t := by
  rw [lt_iff] at above below
  obtain ⟨order, compared, rising⟩ := (le_iff x y).1 rises
  obtain ⟨_, underLow, _⟩ := (written_of_rational least).compare_infinity
  obtain ⟨overHigh, _⟩ := (written_of_rational most).compare_infinity
  rcases rational_cases x with infinite | infinite | undefined | ⟨s, number⟩
  · -- nothing but infinity is as great as infinity
    rcases rational_cases y with other | other | other | ⟨t, number⟩
    · simp [other, overHigh] at below
    · rw [infinite, other] at compared
      cases compared
      exact absurd rfl rising
    · simp [other, compare_notANumber] at compared
    · rw [infinite, (written_of_rational number).compare_infinity.2.2.1] at compared
      cases compared
      exact absurd rfl rising
  · simp [infinite, underLow] at above
  · simp [undefined, compare_notANumber] at above
  · refine ⟨⟨s, number⟩, ?_⟩
    rcases rational_cases y with infinite | infinite | undefined | other
    · simp [infinite, overHigh] at below
    · rw [infinite, (written_of_rational number).compare_infinity.2.1] at compared
      cases compared
      exact absurd rfl rising
    · simp [undefined, compare_notANumber] at compared
    · exact other

end Karst
