import Karst.Terrain
import Karst.Proofs.Cube.Voxels

namespace Karst

open Guarded

structure Cube.AgreeBelow (count : Nat) (a b : Cube) : Prop where
  left : a.WellFormed
  right : b.WellFormed
  coord : a.coord = b.coord
  blocks : ∀ i < count, a.toArray[i]? = b.toArray[i]?

namespace Cube.AgreeBelow

variable {a b : Cube} {count : Nat}

theorem same (agree : AgreeBelow cubeVolume a b) : Cube.Same a b := by
  refine ⟨agree.left, agree.right, agree.coord, Array.ext_getElem? fun i => ?_⟩
  by_cases bound : i < cubeVolume
  · exact agree.blocks i bound
  · have aSize := Cube.size_toArray agree.left
    have bSize := Cube.size_toArray agree.right
    rw [Array.getElem?_eq_none (by omega), Array.getElem?_eq_none (by omega)]

theorem set (agree : AgreeBelow count a b) {p : LocalPos} (inside : p.Inside)
    (next : p.index = count) (block : Block) :
    Alike (AgreeBelow (count + 1)) (a.set p block) (b.set p block) := by
  have bound := inside.index_lt
  obtain ⟨x, left, xWf, xCoord, xBlocks⟩ := Cube.setIndex_spec agree.left bound block
  obtain ⟨y, right, yWf, yCoord, yBlocks⟩ := Cube.setIndex_spec agree.right bound block
  rw [Cube.set, Cube.set, left, right]
  refine .ok ⟨xWf, yWf, ?_, ?_⟩
  · rw [xCoord, yCoord, agree.coord]
  · intro i below
    rw [xBlocks, yBlocks, next]
    by_cases here : i = count
    · have aSize := Cube.size_toArray agree.left
      have bSize := Cube.size_toArray agree.right
      subst here
      rw [Array.getElem?_setIfInBounds_self_of_lt (by omega),
        Array.getElem?_setIfInBounds_self_of_lt (by omega)]
    · rw [Array.getElem?_setIfInBounds_ne (Ne.symm here),
        Array.getElem?_setIfInBounds_ne (Ne.symm here)]
      exact agree.blocks i (by omega)

end Cube.AgreeBelow

namespace Terrain

variable {a b : Cube} (t : Terrain) (grid : NoiseGrid)

theorem fillRow_agree (belowSea : Bool) {y z count : Nat} (yInside : y < cubeSize)
    (zInside : z < cubeSize) (first : count = (y * cubeSize + z) * cubeSize)
    (agree : Cube.AgreeBelow count a b) :
    Alike (Cube.AgreeBelow (count + cubeSize))
      (t.fillRow grid belowSea y z a) (t.fillRow grid belowSea y z b) := by
  refine Alike.foldlM_range (R := fun x => Cube.AgreeBelow (count + x)) agree ?_
  intro x xInside a b agree
  refine (Alike.of_eq rfl).bind ?_
  rintro block _ rfl
  have next : (⟨x, y, z⟩ : LocalPos).index = count + x := by
    rw [first, LocalPos.index]
  exact agree.set ⟨xInside, yInside, zInside⟩ next block

theorem fillLevel_agree (corner : BlockPos) {y count : Nat} (yInside : y < cubeSize)
    (first : count = y * cubeSize * cubeSize) (agree : Cube.AgreeBelow count a b) :
    Alike (Cube.AgreeBelow (count + cubeSize * cubeSize))
      (t.fillLevel grid corner y a) (t.fillLevel grid corner y b) := by
  refine (Alike.of_eq rfl).bind ?_
  rintro height _ rfl
  refine Alike.foldlM_range (R := fun z => Cube.AgreeBelow (count + z * cubeSize))
    (by simpa using agree) ?_
  intro z zInside a b agree
  have row : count + (z + 1) * cubeSize = count + z * cubeSize + cubeSize := by
    rw [Nat.succ_mul, Nat.add_assoc]
  have here : count + z * cubeSize = (y * cubeSize + z) * cubeSize := by
    rw [first, Nat.add_mul]
  rw [row]
  exact t.fillRow_agree grid _ yInside zInside here agree

theorem fill_same (left : a.WellFormed) (right : b.WellFormed) (coord : a.coord = b.coord) :
    Alike Cube.Same (t.fill grid a) (t.fill grid b) := by
  have filled : Alike (fun a b => Cube.AgreeBelow (cubeSize * (cubeSize * cubeSize)) a b)
      (t.fill grid a) (t.fill grid b) := by
    simp only [fill, coord]
    refine (Alike.of_eq rfl).bind ?_
    rintro corner _ rfl
    refine Alike.foldlM_range (R := fun y => Cube.AgreeBelow (y * (cubeSize * cubeSize)))
      ⟨left, right, coord, ?_⟩ ?_
    · intro i none_below
      simp at none_below
    · intro y yInside a b agree
      rw [Nat.succ_mul]
      exact t.fillLevel_agree grid corner yInside (Nat.mul_assoc ..).symm agree
  exact filled.mono fun _ _ agree => agree.same

variable {t : Terrain} {grid : NoiseGrid}

theorem exists_layered {p : LocalPos} (reads : ∀ i, t.density = some i ∨ t.detail = some i →
    ∃ value, grid.interpolate i p = .ok value) (base : Float) :
    ∃ d, t.layered grid p base = .ok d := by
  cases dense : t.density with
  | none =>
    cases fine : t.detail with
    | none => simp [layered, dense, fine]
    | some j =>
      obtain ⟨detail, second⟩ := reads j (.inr fine)
      simp [layered, dense, fine, second]
  | some i =>
    obtain ⟨density, first⟩ := reads i (.inl dense)
    cases fine : t.detail with
    | none => simp [layered, dense, fine, first]
    | some j =>
      obtain ⟨detail, second⟩ := reads j (.inr fine)
      simp [layered, dense, fine, first, second]

theorem exists_densityAt_iff {corner : BlockPos} (located : grid.cube.minBlock = .ok corner)
    {p : LocalPos} (reads : ∀ i, t.density = some i ∨ t.detail = some i →
      ∃ value, grid.interpolate i p = .ok value) :
    (∃ d, t.densityAt grid p = .ok d) ↔
      ∃ height above, Checked.add corner.y (Int32.ofNat p.y) = .ok height ∧
        Checked.sub height t.params.groundLevel = .ok above := by
  simp only [densityAt, gradient, located, ok_bind, bind_eq_ok_iff, pure_eq]
  constructor
  · rintro ⟨_, base, ⟨height, fits, above, level, _⟩, _⟩
    exact ⟨height, above, fits, level⟩
  · rintro ⟨height, above, fits, level⟩
    obtain ⟨d, told⟩ := exists_layered reads (-above.toFloat / t.params.verticalScale)
    exact ⟨d, _, ⟨height, fits, above, level, rfl⟩, told⟩

theorem exists_blockAt {p : LocalPos} {d : Float} (dense : t.densityAt grid p = .ok d)
    (belowSea : Bool) : ∃ block, t.blockAt grid belowSea p = .ok block := by
  simp only [blockAt, dense, ok_bind, pure_eq]
  split
  case isTrue => exact ⟨_, rfl⟩
  case isFalse =>
    split
    case isTrue => exact ⟨_, rfl⟩
    case isFalse => exact ⟨_, rfl⟩

theorem exists_fill {cube : Cube} (wf : cube.WellFormed) {corner : BlockPos}
    (located : cube.coord.minBlock = .ok corner)
    (level : ∀ y < cubeSize, ∃ height, Checked.add corner.y (Int32.ofNat y) = .ok height)
    (dense : ∀ p : LocalPos, p.Inside → ∃ d, t.densityAt grid p = .ok d) :
    ∃ filled, t.fill grid cube = .ok filled ∧ filled.WellFormed ∧ filled.coord = cube.coord := by
  let Kept (c : Cube) : Prop := c.WellFormed ∧ c.coord = cube.coord
  rw [fill, located]
  refine exists_foldlM (P := Kept) ⟨wf, rfl⟩ ?_
  intro y yInside c kept
  obtain ⟨height, fits⟩ := level y (List.mem_range.1 yInside)
  rw [fillLevel, fits, ok_bind]
  refine exists_foldlM (P := Kept) kept ?_
  intro z zInside c kept
  refine exists_foldlM (P := Kept) kept ?_
  rintro x xInside c ⟨wf, coord⟩
  have inside : (⟨x, y, z⟩ : LocalPos).Inside :=
    ⟨List.mem_range.1 xInside, List.mem_range.1 yInside, List.mem_range.1 zInside⟩
  obtain ⟨d, told⟩ := dense _ inside
  obtain ⟨block, found⟩ := exists_blockAt told (decide (height < t.params.seaLevel))
  obtain ⟨out, written, outWf, outCoord, _⟩ := Cube.setIndex_spec wf inside.index_lt block
  rw [found, ok_bind]
  exact ⟨out, written, outWf, outCoord.trans coord⟩

end Terrain

end Karst
