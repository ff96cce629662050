import Karst.Proofs.Noise.Lattice

namespace Karst

open Guarded

theorem CubeCoord.Reaches.toInt_along {cube : CubeCoord} {corner : BlockPos}
    (reaches : cube.Reaches corner) (axis : Axis) :
    (corner.along axis).toInt = (cube.along axis).toInt * 16 := by
  obtain ⟨x, y, z⟩ := CubeCoord.minBlock_eq_ok_iff.1 reaches.located
  cases axis with
  | x => exact x
  | y => exact y
  | z => exact z

namespace NoiseLayer

variable {l : NoiseLayer} {a b : CubeCoord} {aCorner bCorner : BlockPos} {p q : LocalPos}

/-- Along the axis the two points are one point of one cube, or the last point of one cube and the
first point of the next. -/
def Meets (l : NoiseLayer) (a b : CubeCoord) (p q : LocalPos) (axis : Axis) : Prop :=
  (b.along axis = a.along axis ∧ q.along axis = p.along axis) ∨
  ((b.along axis).toInt = (a.along axis).toInt + 1 ∧ p.along axis + 1 = l.lattice ∧
    q.along axis = 0) ∨
  ((a.along axis).toInt = (b.along axis).toInt + 1 ∧ q.along axis + 1 = l.lattice ∧
    p.along axis = 0)

theorem last_mul_span (divides : l.span ∣ cubeSize) {k : Nat} (last : k + 1 = l.lattice) :
    k * l.span = 16 := by
  rw [lattice_eq divides, Nat.add_right_cancel_iff] at last
  rw [last, Nat.div_mul_cancel divides, cubeSize]

theorem Meets.position_eq {axis : Axis} (meets : l.Meets a b p q axis)
    (divides : l.span ∣ cubeSize) (left : a.Reaches aCorner) (right : b.Reaches bCorner) :
    l.position aCorner p axis = l.position bCorner q axis := by
  rw [position, position, left.toInt_along, right.toInt_along]
  rcases meets with ⟨cube, point⟩ | ⟨next, last, first⟩ | ⟨next, last, first⟩
  · rw [cube, point]
  · rw [next, first, last_mul_span divides last]
    omega
  · rw [next, first, last_mul_span divides last]
    omega

theorem pointAt_eq (divides : l.span ∣ cubeSize) (left : a.Reaches aCorner)
    (right : b.Reaches bCorner) (onLeft : l.OnLattice p) (onRight : l.OnLattice q)
    (same : ∀ axis, l.position aCorner p axis = l.position bCorner q axis) :
    l.pointAt aCorner p = l.pointAt bCorner q := by
  refine BlockPos.eq_of_along fun axis => Int32.toInt_inj.1 ?_
  rw [toInt_pointAt left divides onLeft, toInt_pointAt right divides onRight, same]

end NoiseLayer

namespace LayerSet

/-- Points that meet along every axis lie in a shared face, edge or corner of two neighbours, as one,
two or three of the coordinates of the cubes differ. -/
theorem grids_meet {set : LayerSet} (accepted : checkLayers [] set.layers = .ok ())
    {a b : CubeCoord} {aCorner bCorner : BlockPos} (left : a.Reaches aCorner)
    (right : b.Reaches bCorner) (aBuffer bBuffer : Array Float) :
    ∃ near far, set.compute a aBuffer = .ok near ∧ set.compute b bBuffer = .ok far ∧
      ∀ i l, set.layer? i = some l → ∀ p q, l.OnLattice p → l.OnLattice q →
        ((∀ axis, l.position aCorner p axis = l.position bCorner q axis) →
          ∃ value, near.lattice i p = .ok value ∧ far.lattice i q = .ok value) ∧
        ((∀ axis, l.Meets a b p q axis) →
          ∀ axis, l.position aCorner p axis = l.position bCorner q axis) := by
  have divides := span_dvd_of_checkLayers accepted
  refine ⟨_, _, compute_eq left divides aBuffer, compute_eq right divides bBuffer, ?_⟩
  intro i l here p q onLeft onRight
  have whole := dvd_of_layer accepted here
  constructor
  · intro same
    refine ⟨_, lattice_gridAt here whole onLeft, ?_⟩
    rw [lattice_gridAt here whole onRight,
      NoiseLayer.pointAt_eq whole left right onLeft onRight same]
  · intro meets axis
    exact (meets axis).position_eq whole left right

theorem grids_meet_at_origin :
    checkLayers [] defaultWorld.layerSet.layers = .ok () ∧
      CubeCoord.Reaches ⟨-1, 0, 0⟩ ⟨-16, 0, 0⟩ ∧ CubeCoord.Reaches ⟨0, 0, 0⟩ ⟨0, 0, 0⟩ ∧
      densityLayer.OnLattice ⟨4, 1, 2⟩ ∧ densityLayer.OnLattice ⟨0, 1, 2⟩ ∧
      (∀ axis, densityLayer.Meets ⟨-1, 0, 0⟩ ⟨0, 0, 0⟩ ⟨4, 1, 2⟩ ⟨0, 1, 2⟩ axis) ∧
      ∃ near far value,
        defaultWorld.layerSet.compute ⟨-1, 0, 0⟩ #[] = .ok near ∧
        defaultWorld.layerSet.compute ⟨0, 0, 0⟩ #[] = .ok far ∧
        near.lattice 0 ⟨4, 1, 2⟩ = .ok value ∧ far.lattice 0 ⟨0, 1, 2⟩ = .ok value := by
  have accepted : checkLayers [] defaultWorld.layerSet.layers = .ok () := rfl
  have left : CubeCoord.Reaches ⟨-1, 0, 0⟩ ⟨-16, 0, 0⟩ := ⟨rfl, ⟨0, 16, 16⟩, rfl⟩
  have right : CubeCoord.Reaches ⟨0, 0, 0⟩ ⟨0, 0, 0⟩ := ⟨rfl, ⟨16, 16, 16⟩, rfl⟩
  have onLeft : densityLayer.OnLattice ⟨4, 1, 2⟩ := ⟨by decide, by decide, by decide⟩
  have onRight : densityLayer.OnLattice ⟨0, 1, 2⟩ := ⟨by decide, by decide, by decide⟩
  have meets (axis : Axis) :
      densityLayer.Meets ⟨-1, 0, 0⟩ ⟨0, 0, 0⟩ ⟨4, 1, 2⟩ ⟨0, 1, 2⟩ axis := by
    cases axis with
    | x => exact .inr (.inl ⟨rfl, rfl, rfl⟩)
    | y => exact .inl ⟨rfl, rfl⟩
    | z => exact .inl ⟨rfl, rfl⟩
  obtain ⟨near, far, nearDone, farDone, agree⟩ := grids_meet accepted left right #[] #[]
  obtain ⟨values, places⟩ := agree 0 densityLayer rfl ⟨4, 1, 2⟩ ⟨0, 1, 2⟩ onLeft onRight
  obtain ⟨value, nearValue, farValue⟩ := values (places meets)
  exact ⟨accepted, left, right, onLeft, onRight, meets, near, far, value, nearDone, farDone,
    nearValue, farValue⟩

end LayerSet

end Karst
