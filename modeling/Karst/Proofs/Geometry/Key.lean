import Karst.Geometry.Key
import Karst.Proofs.Geometry.Axis
import Karst.Proofs.Geometry.Position

namespace Karst

open CubeKey

def Axis.letter : Axis → Char
  | .x => 'x'
  | .y => 'y'
  | .z => 'z'

def Axis.before : Axis → List Axis
  | .x => []
  | .y => [.x]
  | .z => [.x, .y]

def Axis.place : Axis → Nat
  | .x => 2 ^ 42
  | .y => 2 ^ 21
  | .z => 1

def PackableAxis (v : Int32) : Prop := -2 ^ 20 ≤ v.toInt ∧ v.toInt < 2 ^ 20

instance (v : Int32) : Decidable (PackableAxis v) :=
  inferInstanceAs (Decidable (-2 ^ 20 ≤ v.toInt ∧ v.toInt < 2 ^ 20))

def CubeCoord.Packable (c : CubeCoord) : Prop := ∀ axis, PackableAxis (c.along axis)

instance (c : CubeCoord) : Decidable c.Packable :=
  decidable_of_iff (PackableAxis c.x ∧ PackableAxis c.y ∧ PackableAxis c.z)
    ⟨fun ⟨x, y, z⟩ => fun | .x => x | .y => y | .z => z,
      fun packable => ⟨packable .x, packable .y, packable .z⟩⟩

theorem CubeCoord.Packable.exists_minBlock {c : CubeCoord} (packable : c.Packable) :
    ∃ corner, c.minBlock = .ok corner ∧
      ∀ axis, (corner.along axis).toInt = (c.along axis).toInt * 16 := by
  have near (axis : Axis) :
      (Int32.ofInt ((c.along axis).toInt * 16)).toInt = (c.along axis).toInt * 16 := by
    obtain ⟨lower, upper⟩ := packable axis
    exact Int32.toInt_ofInt_of_le (by omega) (by omega)
  refine ⟨⟨.ofInt (c.x.toInt * 16), .ofInt (c.y.toInt * 16), .ofInt (c.z.toInt * 16)⟩,
    minBlock_eq_ok_iff.2 ⟨near .x, near .y, near .z⟩, fun axis => ?_⟩
  cases axis with
  | x => exact near .x
  | y => exact near .y
  | z => exact near .z

namespace CubeKey

variable {v : Int32} {c : CubeCoord} {key : UInt64} {axis : Axis}

/-! ## One axis -/

theorem toInt_axisMin : axisMin.toInt = -2 ^ 20 := rfl

theorem toInt_axisMax : axisMax.toInt = 2 ^ 20 - 1 := rfl

theorem inRange_iff : inRange v = true ↔ PackableAxis v := by
  simp only [inRange, Bool.and_eq_true, decide_eq_true_eq, Int32.le_iff_toInt_le, toInt_axisMin,
    toInt_axisMax, PackableAxis]
  omega

theorem toInt_clampAxis (v : Int32) :
    (clampAxis v).toInt = max (-2 ^ 20) (min v.toInt (2 ^ 20 - 1)) := by
  simp only [clampAxis, Int32.lt_iff_toInt_lt, toInt_axisMin, toInt_axisMax]
  split
  · rw [toInt_axisMin]
    omega
  · split
    · rw [toInt_axisMax]
      omega
    · omega

theorem clampAxis_eq (packable : PackableAxis v) : clampAxis v = v := by
  obtain ⟨lower, upper⟩ := packable
  rw [← Int32.toInt_inj, toInt_clampAxis]
  omega

theorem packable_clampAxis (v : Int32) : PackableAxis (clampAxis v) := by
  rw [PackableAxis, toInt_clampAxis]
  omega

theorem toNat_masked (w : UInt64) : (w &&& fieldMask).toNat = w.toNat % 2 ^ 21 := by
  rw [UInt64.toNat_and]
  exact Nat.and_two_pow_sub_one_eq_mod w.toNat 21

theorem toNat_field (v : Int32) : (field v).toNat = (v.toInt % 2 ^ 21).toNat := by
  have wide : v.toInt64.toBitVec.toInt = v.toInt := Int32.toInt_toInt64 v
  have word : v.toInt64.toUInt64.toNat = v.toInt64.toBitVec.toNat := rfl
  rw [BitVec.toInt_eq_toNat_bmod, Int.bmod_def] at wide
  rw [field, toNat_masked, word]
  split at wide <;> omega

theorem toInt_signExtend (bits : UInt64) :
    (signExtend bits).toInt = (bits.toNat : Int).bmod (2 ^ 21) := by
  have raised : (bits <<< 43).toInt64.toInt =
      ((bits.toNat * 2 ^ 43 : Nat) : Int).bmod (2 ^ 64) := by
    change (bits <<< 43).toBitVec.toInt = _
    rw [BitVec.toInt_eq_toNat_bmod, UInt64.toNat_toBitVec, UInt64.toNat_shiftLeft,
      Nat.shiftLeft_eq, Int.natCast_mod, Int.emod_bmod]
    rfl
  have lowered (a : Int64) : (a >>> 43).toInt = a.toInt / 2 ^ 43 := by
    rw [← Int64.toInt_toBitVec, Int64.toBitVec_shiftRight, BitVec.sshiftRight_eq',
      BitVec.toInt_sshiftRight, Int.shiftRight_eq_div_pow]
    rfl
  rw [signExtend, Int64.toInt_toInt32, lowered, raised]
  simp only [Int.bmod_def]
  push_cast
  omega

/-! ## The key -/

def digits (key : UInt64) (axis : Axis) : Nat := key.toNat / axis.place % 2 ^ 21

theorem toNat_shifted (w k : UInt64) {bits : Nat} (small : w.toNat < 2 ^ bits)
    (room : bits + k.toNat ≤ 63) : (w <<< k).toNat = w.toNat <<< k.toNat := by
  have bound : w.toNat <<< k.toNat < 2 ^ 64 := by
    calc w.toNat <<< k.toNat = w.toNat * 2 ^ k.toNat := Nat.shiftLeft_eq ..
      _ < 2 ^ bits * 2 ^ k.toNat := Nat.mul_lt_mul_of_pos_right small (Nat.two_pow_pos _)
      _ = 2 ^ (bits + k.toNat) := (Nat.pow_add ..).symm
      _ ≤ 2 ^ 64 := Nat.pow_le_pow_right (by decide) (by omega)
  rw [UInt64.toNat_shiftLeft, Nat.mod_eq_of_lt (a := k.toNat) (by omega), Nat.mod_eq_of_lt bound]

theorem field_lt (v : Int32) : (field v).toNat < 2 ^ 21 := by
  rw [toNat_field]
  omega

theorem toNat_join (c : CubeCoord) : (join c).toNat =
    (field c.x).toNat * 2 ^ 42 + (field c.y).toNat * 2 ^ 21 + (field c.z).toNat := by
  have low := field_lt c.z
  have middle : (field c.y).toNat <<< 21 + (field c.z).toNat < 2 ^ 42 := by
    have := field_lt c.y
    rw [Nat.shiftLeft_eq]
    omega
  rw [join, UInt64.toNat_or, UInt64.toNat_or, toNat_shifted _ _ (field_lt c.x) (by decide),
    toNat_shifted _ _ (field_lt c.y) (by decide), Nat.or_assoc]
  change (field c.x).toNat <<< 42 ||| ((field c.y).toNat <<< 21 ||| (field c.z).toNat) = _
  rw [← Nat.shiftLeft_add_eq_or_of_lt low, ← Nat.shiftLeft_add_eq_or_of_lt middle,
    Nat.shiftLeft_eq, Nat.shiftLeft_eq, Nat.add_assoc]

theorem join_lt (c : CubeCoord) : (join c).toNat < 2 ^ 63 := by
  have x := field_lt c.x
  have y := field_lt c.y
  have z := field_lt c.z
  rw [toNat_join]
  omega

theorem digits_join (c : CubeCoord) (axis : Axis) :
    (digits (join c) axis : Int) = (c.along axis).toInt % 2 ^ 21 := by
  rw [digits, toNat_join, toNat_field, toNat_field, toNat_field]
  cases axis <;> simp only [Axis.place, CubeCoord.along] <;> omega

theorem toInt_along_unpack (key : UInt64) (axis : Axis) :
    ((unpack key).along axis).toInt = (digits key axis : Int).bmod (2 ^ 21) := by
  have fortyTwo : (42 : UInt64).toNat % 64 = 42 := rfl
  have twentyOne : (21 : UInt64).toNat % 64 = 21 := rfl
  cases axis <;>
    simp only [unpack, CubeCoord.along, toInt_signExtend, toNat_masked, UInt64.toNat_shiftRight,
      fortyTwo, twentyOne, Nat.shiftRight_eq_div_pow, digits, Axis.place, Nat.div_one]

theorem packable_unpack (key : UInt64) : (unpack key).Packable := by
  intro axis
  rw [PackableAxis, toInt_along_unpack, Int.bmod_def]
  split <;> omega

theorem eq_of_digits {a b : UInt64} (left : a.toNat < 2 ^ 63) (right : b.toNat < 2 ^ 63)
    (same : ∀ axis, digits a axis = digits b axis) : a = b := by
  have x := same .x
  have y := same .y
  have z := same .z
  simp only [digits, Axis.place] at x y z
  rw [← UInt64.toNat_inj]
  omega

/-! ## Cubes and keys -/

/-- The nearest cube of the packed range. -/
def clamped (c : CubeCoord) : CubeCoord := ⟨clampAxis c.x, clampAxis c.y, clampAxis c.z⟩

theorem along_clamped (c : CubeCoord) (axis : Axis) :
    (clamped c).along axis = clampAxis (c.along axis) := by
  cases axis <;> rfl

theorem packable_clamped (c : CubeCoord) : (clamped c).Packable := by
  intro axis
  rw [along_clamped]
  exact packable_clampAxis _

theorem clamped_eq (packable : c.Packable) : clamped c = c := by
  have x : clampAxis c.x = c.x := clampAxis_eq (packable .x)
  have y : clampAxis c.y = c.y := clampAxis_eq (packable .y)
  have z : clampAxis c.z = c.z := clampAxis_eq (packable .z)
  rw [clamped, x, y, z]

theorem pack_eq_join (packable : c.Packable) : pack c = join c :=
  congrArg join (clamped_eq packable)

theorem unpack_join (packable : c.Packable) : unpack (join c) = c := by
  refine CubeCoord.eq_of_along fun axis => ?_
  obtain ⟨lower, upper⟩ := packable axis
  have range := Int.bmod_def (digits (join c) axis) (2 ^ 21)
  rw [← Int32.toInt_inj, toInt_along_unpack, range, digits_join]
  split <;> omega

theorem unpack_pack (c : CubeCoord) : unpack (pack c) = clamped c :=
  unpack_join (packable_clamped c)

theorem pack_unpack (key : UInt64) : pack (unpack key) = key &&& 0x7fffffffffffffff := by
  have cleared : (key &&& 0x7fffffffffffffff).toNat = key.toNat % 2 ^ 63 := by
    rw [UInt64.toNat_and]
    exact Nat.and_two_pow_sub_one_eq_mod key.toNat 63
  refine eq_of_digits (join_lt _) (by omega) fun axis => ?_
  have kept : digits (key &&& 0x7fffffffffffffff) axis = digits key axis := by
    rw [digits, digits, cleared]
    cases axis <;> simp only [Axis.place] <;> omega
  have small : digits key axis < 2 ^ 21 := Nat.mod_lt _ (by decide)
  have turn : ((digits key axis : Int).bmod (2 ^ 21)) % 2 ^ 21 = digits key axis := by
    rw [Int.bmod_def]
    split <;> omega
  rw [kept, ← Int.natCast_inj, pack_eq_join (packable_unpack key), digits_join,
    toInt_along_unpack, turn]

theorem eq_of_pack_eq {a b : CubeCoord} (left : a.Packable) (right : b.Packable)
    (same : pack a = pack b) : a = b := by
  rw [pack_eq_join left, pack_eq_join right] at same
  rw [← unpack_join left, same, unpack_join right]

theorem tryPack_of_packable (packable : c.Packable) : tryPack c = .ok (pack c) := by
  have x : inRange c.x = true := inRange_iff.2 (packable .x)
  have y : inRange c.y = true := inRange_iff.2 (packable .y)
  have z : inRange c.z = true := inRange_iff.2 (packable .z)
  rw [tryPack, x, y, z, pack_eq_join packable]
  rfl

theorem tryPack_of_axis (outside : ¬ PackableAxis (c.along axis))
    (first : ∀ earlier ∈ axis.before, PackableAxis (c.along earlier)) :
    tryPack c = .error ⟨axis.letter, c.along axis⟩ := by
  rw [← inRange_iff, Bool.not_eq_true] at outside
  have earlier (other : Axis) (member : other ∈ axis.before) : inRange (c.along other) = true :=
    inRange_iff.2 (first other member)
  cases axis with
  | x =>
    have x : inRange c.x = false := outside
    rw [tryPack, x]
    rfl
  | y =>
    have x : inRange c.x = true := earlier .x (by decide)
    have y : inRange c.y = false := outside
    rw [tryPack, x, y]
    rfl
  | z =>
    have x : inRange c.x = true := earlier .x (by decide)
    have y : inRange c.y = true := earlier .y (by decide)
    have z : inRange c.z = false := outside
    rw [tryPack, x, y, z]
    rfl

theorem exists_first_axis (outside : ¬ c.Packable) : ∃ axis, ¬ PackableAxis (c.along axis) ∧
    ∀ earlier ∈ axis.before, PackableAxis (c.along earlier) := by
  by_cases x : PackableAxis (c.along .x)
  · by_cases y : PackableAxis (c.along .y)
    · refine ⟨.z, fun z => outside fun axis => ?_, by simp [Axis.before, x, y]⟩
      cases axis <;> assumption
    · exact ⟨.y, y, by simp [Axis.before, x]⟩
  · exact ⟨.x, x, by simp [Axis.before]⟩

theorem tryPack_eq_ok_iff : tryPack c = .ok key ↔ c.Packable ∧ key = pack c := by
  constructor
  · intro packed
    have packable : c.Packable := by
      by_contra outside
      obtain ⟨axis, beyond, first⟩ := exists_first_axis outside
      rw [tryPack_of_axis beyond first] at packed
      cases packed
    rw [tryPack_of_packable packable] at packed
    exact ⟨packable, (Except.ok.inj packed).symm⟩
  · rintro ⟨packable, rfl⟩
    exact tryPack_of_packable packable

theorem tryPack_eq_error_iff {e : RangeError} : tryPack c = .error e ↔
    ∃ axis, e = ⟨axis.letter, c.along axis⟩ ∧ ¬ PackableAxis (c.along axis) ∧
      ∀ earlier ∈ axis.before, PackableAxis (c.along earlier) := by
  constructor
  · intro rejected
    have outside : ¬ c.Packable := by
      intro packable
      rw [tryPack_of_packable packable] at rejected
      cases rejected
    obtain ⟨axis, beyond, first⟩ := exists_first_axis outside
    rw [tryPack_of_axis beyond first] at rejected
    exact ⟨axis, (Except.error.inj rejected).symm, beyond, first⟩
  · rintro ⟨axis, rfl, beyond, first⟩
    exact tryPack_of_axis beyond first

theorem codec :
    (∀ c axis, ((unpack (pack c)).along axis).toInt =
      max (-2 ^ 20) (min (c.along axis).toInt (2 ^ 20 - 1))) ∧
    (∀ c, pack c >>> 63 = 0) ∧
    (∀ c key, tryPack c = .ok key ↔ c.Packable ∧ key = pack c) ∧
    (∀ c e, tryPack c = .error e ↔ ∃ axis : Axis, e = ⟨axis.letter, c.along axis⟩ ∧
      ¬ PackableAxis (c.along axis) ∧
      ∀ earlier ∈ axis.before, PackableAxis (c.along earlier)) ∧
    (∀ key, pack (unpack key) = key &&& 0x7fffffffffffffff) ∧
    ∀ a b : CubeCoord, a.Packable → b.Packable → pack a = pack b → a = b := by
  refine ⟨fun c axis => ?_, fun c => ?_, fun c key => tryPack_eq_ok_iff,
    fun c e => tryPack_eq_error_iff, pack_unpack, fun a b => eq_of_pack_eq⟩
  · rw [unpack_pack, along_clamped, toInt_clampAxis]
  · have bound : (pack c).toNat < 2 ^ 63 := join_lt _
    rw [← UInt64.toNat_inj, UInt64.toNat_shiftRight, Nat.shiftRight_eq_div_pow]
    exact Nat.div_eq_of_lt bound

theorem codec_at_the_edges :
    (∀ axis, ((unpack (pack ⟨-2000000, 7, 1048576⟩)).along axis).toInt =
      max (-2 ^ 20) (min ((⟨-2000000, 7, 1048576⟩ : CubeCoord).along axis).toInt (2 ^ 20 - 1))) ∧
    tryPack ⟨0, 1048576, -1048577⟩ = .error ⟨'y', 1048576⟩ ∧
    tryPack ⟨-1048576, 1048575, -1⟩ = .ok (pack ⟨-1048576, 1048575, -1⟩) ∧
    pack (unpack 0x8000000000000001) = 1 ∧
    pack ⟨-1048576, 1048575, -1⟩ ≠ pack ⟨1048575, -1048576, -1⟩ := by
  obtain ⟨back, _, packed, rejected, again, inj⟩ := codec
  have low : (⟨-1048576, 1048575, -1⟩ : CubeCoord).Packable := by decide
  have high : (⟨1048575, -1048576, -1⟩ : CubeCoord).Packable := by decide
  refine ⟨back _, (rejected _ _).2 ⟨.y, rfl, by decide, by decide⟩, (packed _ _).2 ⟨low, rfl⟩,
    again _, fun same => ?_⟩
  exact absurd (inj _ _ low high same) (by decide)

end CubeKey

end Karst
