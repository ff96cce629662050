import Karst.Noise.Grid
import Karst.Proofs.Guarded

namespace Karst

open Guarded

namespace NoiseLayer

def numbers (l : NoiseLayer) : Int32 × Float32 × UInt32 × Nat :=
  (l.salt, l.frequency, l.octaves, l.span)

variable {a b : NoiseLayer}

theorem octaveSum_congr (same : a.numbers = b.numbers) (seed : Int32) (x y z : Float32)
    (octaves : Nat) (amplitude frequency sum reach : Float32) :
    a.octaveSum seed x y z octaves amplitude frequency sum reach =
      b.octaveSum seed x y z octaves amplitude frequency sum reach := by
  simp only [numbers, Prod.mk.injEq] at same
  induction octaves generalizing amplitude frequency sum reach with
  | zero => rfl
  | succ octaves ih => simp only [octaveSum, same.2.1, ih]

theorem computeLayer_congr (same : a.numbers = b.numbers) (seed : Int32) (corner : BlockPos)
    (data : Array Float) :
    LayerSet.computeLayer a seed corner data = LayerSet.computeLayer b seed corner data := by
  have sample : a.sample seed = b.sample seed := by
    funext x y z
    simp only [numbers, Prod.mk.injEq] at same
    simp only [NoiseLayer.sample, same.2.2.1]
    rw [octaveSum_congr]
    simp only [numbers, same]
  simp only [numbers, Prod.mk.injEq] at same
  simp only [LayerSet.computeLayer, lattice, same.2.2.2, sample]

end NoiseLayer

namespace LayerSet

def SameNumbers (a b : LayerSet) : Prop :=
  a.seed = b.seed ∧ a.layers.map NoiseLayer.numbers = b.layers.map NoiseLayer.numbers

theorem computeLayers_congr {first second : List NoiseLayer}
    (same : first.map NoiseLayer.numbers = second.map NoiseLayer.numbers) (seed : UInt64)
    (corner : BlockPos) (offsets : Array Nat) (data : Array Float) :
    computeLayers seed corner first offsets data = computeLayers seed corner second offsets data := by
  induction first generalizing second offsets data with
  | nil =>
    cases second with
    | nil => rfl
    | cons l second => cases same
  | cons l first ih =>
    cases second with
    | nil => cases same
    | cons m second =>
      rw [List.map_cons, List.map_cons, List.cons.injEq] at same
      have salt : l.salt = m.salt := congrArg Prod.fst same.1
      simp only [computeLayers, salt, NoiseLayer.computeLayer_congr same.1, ih same.2]

theorem compute_congr {a b : LayerSet} (world : a.world = b.world)
    (print : a.fingerprint = b.fingerprint) (same : a.SameNumbers b) (cube : CubeCoord)
    (buffer : Array Float) : a.compute cube buffer = b.compute cube buffer := by
  obtain ⟨seed, numbers⟩ := same
  have spans : a.layers.map NoiseLayer.span = b.layers.map NoiseLayer.span := by
    have projected := congrArg (List.map fun n => n.2.2.2) numbers
    rwa [List.map_map, List.map_map] at projected
  simp only [compute, world, print, seed, spans, computeLayers_congr numbers]

theorem compute_buffer (set : LayerSet) (cube : CubeCoord) (buffer : Array Float) :
    set.compute cube buffer = set.compute cube #[] := by
  simp [compute]

variable {set other : LayerSet} {cube : CubeCoord} {buffer : Array Float} {grid : NoiseGrid}

theorem labels_of_compute (computed : set.compute cube buffer = .ok grid) :
    grid.world = set.world ∧ grid.cube = cube ∧ grid.fingerprint = set.fingerprint := by
  obtain ⟨corner, _, computed⟩ := bind_eq_ok_iff.1 computed
  obtain ⟨out, _, computed⟩ := bind_eq_ok_iff.1 computed
  cases computed
  exact ⟨rfl, rfl, rfl⟩

theorem fits_iff_of_compute (computed : set.compute cube buffer = .ok grid) (c : CubeCoord) :
    grid.fits other c ↔
      set.world = other.world ∧ set.fingerprint = other.fingerprint ∧ cube = c := by
  obtain ⟨world, place, print⟩ := labels_of_compute computed
  simp only [NoiseGrid.fits, world, place, print, Bool.and_eq_true, beq_iff_eq, and_assoc]

theorem fits_eq_false_of_compute (computed : set.compute cube buffer = .ok grid)
    (print : set.fingerprint ≠ other.fingerprint) (c : CubeCoord) :
    grid.fits other c = false := by
  rw [Bool.eq_false_iff, Ne, fits_iff_of_compute computed]
  rintro ⟨_, same, _⟩
  exact print same

end LayerSet

end Karst
