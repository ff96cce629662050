import Karst.Proofs.Geometry.Key
import Karst.Proofs.Noise.Lattice
import Karst.Proofs.Terrain

namespace Karst

open Guarded

theorem CubeCoord.Packable.exists_reaches {cube : CubeCoord} (packable : cube.Packable) :
    ∃ corner, cube.Reaches corner ∧ corner.y.toInt = cube.y.toInt * 16 := by
  obtain ⟨corner, located, along⟩ := packable.exists_minBlock
  have past (axis : Axis) : ∃ w, Checked.add (corner.along axis) 16 = .ok w := by
    obtain ⟨lower, upper⟩ := packable axis
    unfold Checked.add
    rw [Checked.exists_int32_iff, along, show (16 : Int32).toInt = 16 from rfl]
    omega
  obtain ⟨x, atX⟩ := past .x
  obtain ⟨y, atY⟩ := past .y
  obtain ⟨z, atZ⟩ := past .z
  have far : corner.offset 16 16 16 = .ok ⟨x, y, z⟩ := by
    simp only [BlockPos.along] at atX atY atZ
    simp only [BlockPos.offset, atX, atY, atZ, ok_bind, pure_eq]
  exact ⟨corner, ⟨located, _, far⟩, along .y⟩

theorem LayerSet.exists_interpolate {set : LayerSet} (accepted : checkLayers [] set.layers = .ok ())
    (cube : CubeCoord) (corner : BlockPos) {name : String} {i : Nat}
    (named : set.layerIndex? name = some i) {p : LocalPos} (inside : p.Inside) :
    ∃ value, (set.gridAt cube corner).interpolate i p = .ok value := by
  obtain ⟨bound, _⟩ := List.findIdx?_eq_some_iff_getElem.1 named
  have here : set.layers[i]? = some set.layers[i] := List.getElem?_eq_getElem bound
  have divides := dvd_of_layer accepted here
  have positive : set.layers[i].span ≠ 0 := (Nat.pos_of_dvd_of_pos divides (by decide)).ne'
  refine NoiseGrid.exists_interpolate (spans_gridAt here) positive fun q corner => ?_
  exact ⟨_, lattice_gridAt here divides (NoiseLayer.corners_onLattice divides inside q corner)⟩

def World.terrain (world : World) : Terrain := .ofLayers world.layerSet world.params.terrain

/-- The layers can be sampled over a cube, and then the density told at its blocks and the cube
filled in. -/
def World.Shapes (world : World) (cube : CubeCoord) : Prop :=
  ∀ buffer, ∃ grid, world.layerSet.compute cube buffer = .ok grid ∧
    (∀ p : LocalPos, p.Inside → ∃ d, world.terrain.densityAt grid p = .ok d) ∧
    ∀ c : Cube, c.WellFormed → c.coord = cube → ∃ filled, world.terrain.fill grid c = .ok filled

/-- The heights of a cube's blocks above the ground fit their words. -/
def World.Levels (world : World) (cube : CubeCoord) : Prop :=
  -2 ^ 31 ≤ cube.y.toInt * 16 - world.params.terrain.groundLevel.toInt ∧
    cube.y.toInt * 16 + 15 - world.params.terrain.groundLevel.toInt < 2 ^ 31

variable {world : World} {cube : CubeCoord} {corner : BlockPos}

theorem CubeCoord.Packable.exists_height (packable : cube.Packable)
    (lowest : corner.y.toInt = cube.y.toInt * 16) {y : Nat} (inside : y < cubeSize) :
    ∃ height, Checked.add corner.y (Int32.ofNat y) = .ok height ∧
      height.toInt = cube.y.toInt * 16 + y := by
  obtain ⟨lower, upper⟩ := packable .y
  simp only [CubeCoord.along, cubeSize] at lower upper inside
  unfold Checked.add
  rw [lowest, Int32.toInt_ofNat_of_lt (by omega)]
  exact Checked.exists_int32 _ (by omega) (by omega)

theorem World.exists_densityAt_iff (accepted : checkLayers [] world.params.layers = .ok ())
    (packable : cube.Packable) (reaches : cube.Reaches corner)
    (lowest : corner.y.toInt = cube.y.toInt * 16) {p : LocalPos} (inside : p.Inside) :
    (∃ d, world.terrain.densityAt (world.layerSet.gridAt cube corner) p = .ok d) ↔
      -2 ^ 31 ≤ cube.y.toInt * 16 + p.y - world.params.terrain.groundLevel.toInt ∧
        cube.y.toInt * 16 + p.y - world.params.terrain.groundLevel.toInt < 2 ^ 31 := by
  have reads (i : Nat) (used : world.terrain.density = some i ∨ world.terrain.detail = some i) :
      ∃ value, (world.layerSet.gridAt cube corner).interpolate i p = .ok value := by
    rcases used with named | named
    · exact LayerSet.exists_interpolate accepted cube corner named inside
    · exact LayerSet.exists_interpolate accepted cube corner named inside
  have located : (world.layerSet.gridAt cube corner).cube.minBlock = .ok corner := reaches.located
  obtain ⟨height, fits, value⟩ := packable.exists_height lowest inside.2.1
  rw [Terrain.exists_densityAt_iff located reads]
  constructor
  · rintro ⟨height', above, fits', level⟩
    cases fits.symm.trans fits'
    have bounds := (Checked.exists_int32_iff _).1 ⟨above, level⟩
    rw [value] at bounds
    exact ⟨bounds.1, Int.lt_of_le_sub_one bounds.2⟩
  · rintro ⟨lower, upper⟩
    rw [← value] at lower upper
    obtain ⟨above, level⟩ := (Checked.exists_int32_iff _).2 ⟨lower, Int.le_sub_one_of_lt upper⟩
    exact ⟨height, above, fits, level⟩

theorem World.Levels.exists_fill (levels : world.Levels cube)
    (accepted : checkLayers [] world.params.layers = .ok ()) (packable : cube.Packable) :
    ∃ grid, (∀ buffer, world.layerSet.compute cube buffer = .ok grid) ∧
      (∀ p : LocalPos, p.Inside → ∃ d, world.terrain.densityAt grid p = .ok d) ∧
      ∀ c : Cube, c.WellFormed → c.coord = cube → ∃ filled,
        world.terrain.fill grid c = .ok filled ∧ filled.WellFormed ∧ filled.coord = cube := by
  obtain ⟨corner, reaches, lowest⟩ := packable.exists_reaches
  obtain ⟨lower, upper⟩ := levels
  have dense : ∀ p : LocalPos, p.Inside → ∃ d,
      world.terrain.densityAt (world.layerSet.gridAt cube corner) p = .ok d := by
    intro p inside
    have y : p.y < 16 := inside.2.1
    rw [World.exists_densityAt_iff accepted packable reaches lowest inside]
    omega
  refine ⟨_, LayerSet.compute_eq reaches (span_dvd_of_checkLayers accepted), dense, ?_⟩
  rintro c wf rfl
  exact Terrain.exists_fill wf reaches.located
    (fun y inside => (packable.exists_height lowest inside).imp fun _ height => height.1) dense

theorem World.shapes_iff (accepted : checkLayers [] world.params.layers = .ok ())
    (packable : cube.Packable) : world.Shapes cube ↔ world.Levels cube := by
  constructor
  · intro shapes
    obtain ⟨corner, reaches, lowest⟩ := packable.exists_reaches
    have dense_iff {p : LocalPos} (inside : p.Inside) :=
      World.exists_densityAt_iff accepted packable reaches lowest inside
    obtain ⟨grid, computed, dense, _⟩ := shapes #[]
    rw [LayerSet.compute_eq reaches (span_dvd_of_checkLayers accepted)] at computed
    cases computed
    have bottom := (dense_iff (p := ⟨0, 0, 0⟩) (by decide)).1 (dense _ (by decide))
    have top := (dense_iff (p := ⟨0, 15, 0⟩) (by decide)).1 (dense _ (by decide))
    exact ⟨by simpa using bottom.1, top.2⟩
  · intro levels buffer
    obtain ⟨grid, sampled, dense, fills⟩ := levels.exists_fill accepted packable
    refine ⟨grid, sampled buffer, dense, ?_⟩
    intro c wf coord
    exact (fills c wf coord).imp fun _ filled => filled.1

/-- Settings that pass their check can make the base terrain of a cube exactly if its heights above
the ground fit, and so everywhere in the packed range exactly if the ground is as far from the ends
of the words as that range reaches. -/
theorem World.shapes_everywhere_iff {p : Params} (accepted : p.check = .ok ()) :
    (∀ id seed (cube : CubeCoord), cube.Packable →
      ((⟨id, seed, p⟩ : World).Shapes cube ↔ (⟨id, seed, p⟩ : World).Levels cube)) ∧
    ((∀ id seed (cube : CubeCoord), cube.Packable → (⟨id, seed, p⟩ : World).Shapes cube) ↔
      |p.terrain.groundLevel.toInt| ≤ 2 ^ 31 - 2 ^ 24) := by
  have layers : checkLayers [] p.layers = .ok () :=
    (p.check_eq_ok_iff.1 accepted).2.2.2.2.2.2.2.1
  have shapes (id : UInt32) (seed : UInt64) (cube : CubeCoord) (packable : cube.Packable) :
      (⟨id, seed, p⟩ : World).Shapes cube ↔ (⟨id, seed, p⟩ : World).Levels cube :=
    World.shapes_iff layers packable
  refine ⟨shapes, ?_⟩
  rw [abs_le]
  constructor
  · intro everywhere
    have deepest : (⟨0, -1048576, 0⟩ : CubeCoord).Packable := by decide
    have highest : (⟨0, 1048575, 0⟩ : CubeCoord).Packable := by decide
    have bottom := ((shapes 0 0 _ deepest).1 (everywhere 0 0 _ deepest)).1
    have top := ((shapes 0 0 _ highest).1 (everywhere 0 0 _ highest)).2
    have low : (-1048576 : Int32).toInt = -1048576 := rfl
    have high : (1048575 : Int32).toInt = 1048575 := rfl
    simp only [low, high] at bottom top
    omega
  · rintro ⟨lower, upper⟩ id seed cube packable
    obtain ⟨deep, high⟩ := packable .y
    simp only [CubeCoord.along] at deep high
    exact (shapes id seed cube packable).2 ⟨by simp only; omega, by simp only; omega⟩

theorem World.shapes_everywhere_default : Params.check {} = .ok () ∧
    (⟨-1048576, 1048575, 0⟩ : CubeCoord).Packable ∧
    (⟨3, 9, {}⟩ : World).Shapes ⟨-1048576, 1048575, 0⟩ := by
  have corner : (⟨-1048576, 1048575, 0⟩ : CubeCoord).Packable := by decide
  obtain ⟨_, everywhere⟩ := World.shapes_everywhere_iff (p := {}) rfl
  exact ⟨rfl, corner, everywhere.2 (by decide) 3 9 _ corner⟩

def sunkenParams : Params := { layers := [], terrain := { groundLevel := -2147483648 } }

theorem World.sunken_overflows : sunkenParams.check = .ok () ∧
    (⟨0, 0, 0⟩ : CubeCoord).Packable ∧
    ∃ grid, (⟨0, 1, sunkenParams⟩ : World).layerSet.compute ⟨0, 0, 0⟩ #[] = .ok grid ∧
      (⟨0, 1, sunkenParams⟩ : World).terrain.densityAt grid ⟨0, 0, 0⟩ = .error .overflow :=
  ⟨rfl, by decide, _, rfl, rfl⟩

end Karst
