import Karst.Geometry.Coord
import Karst.Proofs.Guarded

namespace Karst

theorem toInt_shiftRight_four (x : Int32) : (x >>> 4).toInt = x.toInt / 16 := by
  rw [← Int32.toInt_toBitVec, Int32.toBitVec_shiftRight, BitVec.sshiftRight_eq',
    BitVec.toInt_sshiftRight, Int.shiftRight_eq_div_pow]
  rfl

theorem toNat_extended {d : Int32} (nonnegative : 0 ≤ d.toInt) :
    d.toInt64.toUInt64.toNat = d.toInt.toNat := by
  have wide : d.toInt64.toBitVec.toInt = d.toInt := Int32.toInt_toInt64 d
  have word : d.toInt64.toUInt64.toNat = d.toInt64.toBitVec.toNat := rfl
  have upper := d.toInt64.toBitVec.isLt
  rw [BitVec.toInt_eq_toNat_cond] at wide
  split at wide <;> omega

theorem Checked.exists_int32 (value : Int) (lower : -2147483648 ≤ value)
    (upper : value ≤ 2147483647) : ∃ word, int32 value = .ok word ∧ word.toInt = value := by
  refine ⟨Int32.ofInt value, if_pos ⟨lower, upper⟩, ?_⟩
  exact Int32.toInt_ofInt_of_le (by omega) (by omega)

theorem Checked.exists_int32_iff (value : Int) :
    (∃ word, int32 value = .ok word) ↔ -2147483648 ≤ value ∧ value ≤ 2147483647 := by
  constructor
  · rintro ⟨word, done⟩
    rw [int32_eq_ok_iff] at done
    have lower := word.le_toInt
    have upper := word.toInt_lt
    omega
  · rintro ⟨lower, upper⟩
    exact (exists_int32 value lower upper).imp fun _ word => word.1

theorem axis_corner (x : Int32) :
    ∃ corner, Checked.mul (x >>> 4) 16 = .ok corner ∧ corner.toInt = x.toInt / 16 * 16 := by
  have lower := x.le_toInt
  have upper := x.toInt_lt
  have sixteen : (16 : Int32).toInt = 16 := rfl
  unfold Checked.mul
  rw [toInt_shiftRight_four, sixteen]
  exact Checked.exists_int32 _ (by omega) (by omega)

theorem axis_inside {x corner : Int32} (lowest : corner.toInt = x.toInt / 16 * 16) :
    ∃ d, Checked.sub x corner = .ok d ∧ d.toInt64.toUInt64.toNat = (x.toInt % 16).toNat := by
  unfold Checked.sub
  obtain ⟨d, done, value⟩ :=
    Checked.exists_int32 (x.toInt - corner.toInt) (by omega) (by omega)
  refine ⟨d, done, ?_⟩
  rw [toNat_extended (by omega), value, lowest]
  congr 1
  omega

theorem CubeCoord.minBlock_eq_ok_iff {c : CubeCoord} {p : BlockPos} : c.minBlock = .ok p ↔
    p.x.toInt = c.x.toInt * 16 ∧ p.y.toInt = c.y.toInt * 16 ∧ p.z.toInt = c.z.toInt * 16 := by
  have sixteen : (16 : Int32).toInt = 16 := rfl
  simp only [minBlock, Guarded.bind_eq_ok_iff, Checked.mul, Checked.int32_eq_ok_iff, sixteen,
    Guarded.pure_eq]
  constructor
  · rintro ⟨x, atX, y, atY, z, atZ, same⟩
    cases same
    exact ⟨atX, atY, atZ⟩
  · rintro ⟨atX, atY, atZ⟩
    exact ⟨p.x, atX, p.y, atY, p.z, atZ, rfl⟩

theorem BlockPos.offset_eq_ok_iff {p q : BlockPos} {dx dy dz : Int32} :
    p.offset dx dy dz = .ok q ↔ q.x.toInt = p.x.toInt + dx.toInt ∧
      q.y.toInt = p.y.toInt + dy.toInt ∧ q.z.toInt = p.z.toInt + dz.toInt := by
  simp only [offset, Guarded.bind_eq_ok_iff, Checked.add, Checked.int32_eq_ok_iff, Guarded.pure_eq]
  constructor
  · rintro ⟨x, atX, y, atY, z, atZ, same⟩
    cases same
    exact ⟨atX, atY, atZ⟩
  · rintro ⟨atX, atY, atZ⟩
    exact ⟨q.x, atX, q.y, atY, q.z, atZ, rfl⟩

def BlockPos.inCube (p : BlockPos) : LocalPos :=
  ⟨(p.x.toInt % 16).toNat, (p.y.toInt % 16).toNat, (p.z.toInt % 16).toNat⟩

theorem BlockPos.inCube_inside (p : BlockPos) : p.inCube.Inside := by
  refine ⟨?_, ?_, ?_⟩ <;> simp only [inCube, cubeSize] <;> omega

theorem BlockPos.relativeTo_minBlock (p : BlockPos) :
    ∃ corner, (CubeCoord.ofBlock p).minBlock = .ok corner ∧ p.relativeTo corner = .ok p.inCube := by
  obtain ⟨x, xDone, xValue⟩ := axis_corner p.x
  obtain ⟨y, yDone, yValue⟩ := axis_corner p.y
  obtain ⟨z, zDone, zValue⟩ := axis_corner p.z
  obtain ⟨dx, dxDone, dxValue⟩ := axis_inside xValue
  obtain ⟨dy, dyDone, dyValue⟩ := axis_inside yValue
  obtain ⟨dz, dzDone, dzValue⟩ := axis_inside zValue
  refine ⟨⟨x, y, z⟩, ?_, ?_⟩
  · simp [CubeCoord.minBlock, CubeCoord.ofBlock, xDone, yDone, zDone]
  · simp [BlockPos.relativeTo, BlockPos.inCube, dxDone, dyDone, dzDone, dxValue, dyValue, dzValue]

theorem BlockPos.eq_of_inCube {p q : BlockPos} (cube : CubeCoord.ofBlock p = CubeCoord.ofBlock q)
    (inCube : p.inCube = q.inCube) : p = q := by
  cases p
  cases q
  simp only [CubeCoord.ofBlock, CubeCoord.mk.injEq, BlockPos.inCube, LocalPos.mk.injEq,
    ← Int32.toInt_inj, toInt_shiftRight_four, BlockPos.mk.injEq] at *
  omega

theorem toInt_ofNat_axis (x : Int32) :
    (Int32.ofNat (x.toInt % 16).toNat).toInt = x.toInt % 16 := by
  rw [Int32.toInt_ofNat_of_lt] <;> omega

theorem BlockPos.atLocal_inCube (p : BlockPos) :
    ((CubeCoord.ofBlock p).minBlock >>= fun corner => corner.atLocal p.inCube) = .ok p := by
  obtain ⟨corner, lowest, _⟩ := p.relativeTo_minBlock
  obtain ⟨x, y, z⟩ := CubeCoord.minBlock_eq_ok_iff.1 lowest
  simp only [CubeCoord.ofBlock, toInt_shiftRight_four] at x y z
  rw [lowest, Guarded.ok_bind, atLocal, offset_eq_ok_iff]
  simp only [inCube, toInt_ofNat_axis]
  omega

namespace LocalPos

theorem Inside.index_lt {p : LocalPos} (inside : p.Inside) : p.index < cubeVolume := by
  obtain ⟨x, y, z⟩ := inside
  simp only [index, cubeSize, cubeVolume] at *
  omega

theorem exists_index_eq {i : Nat} (bound : i < cubeVolume) :
    ∃ p : LocalPos, p.Inside ∧ p.index = i := by
  simp only [cubeVolume] at bound
  refine ⟨⟨i % 16, i / 256, i / 16 % 16⟩, ?_, ?_⟩
  · simp only [Inside, cubeSize]
    omega
  · simp only [index, cubeSize]
    omega

theorem Inside.index_inj {p q : LocalPos} (pInside : p.Inside) (qInside : q.Inside)
    (same : p.index = q.index) : p = q := by
  obtain ⟨px, py, pz⟩ := pInside
  obtain ⟨qx, qy, qz⟩ := qInside
  cases p
  cases q
  simp only [index, cubeSize] at *
  simp only [LocalPos.mk.injEq]
  omega

end LocalPos

end Karst
