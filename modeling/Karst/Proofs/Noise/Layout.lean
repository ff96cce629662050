import Karst.Proofs.Geometry.Axis
import Karst.Proofs.Geometry.Position
import Karst.Proofs.Noise.Grid
import Karst.Proofs.Settings

/-!
The grid of a cube in closed form. The layers follow one another in one array, and the samples of a
layer are in the order of `y`, then `z`, then `x`. Nothing overflows when the spans divide a cube and
the far face of the lattice keeps within the words.
-/

namespace Karst

open Guarded

/-! ## Pieces one after another -/

theorem getElem?_flatMap {α β : Type} {items : List α} {f : α → List β} {i s : Nat} {a : α}
    (here : items[i]? = some a) (inside : s < (f a).length) :
    (items.flatMap f)[((items.take i).map fun a => (f a).length).sum + s]? = (f a)[s]? := by
  induction items generalizing i with
  | nil => simp at here
  | cons b items ih =>
    rw [List.flatMap_cons]
    cases i with
    | zero =>
      obtain rfl : b = a := by simpa using here
      simp [List.getElem?_append_left inside]
    | succ i =>
      rw [List.take_succ_cons, List.map_cons, List.sum_cons, Nat.add_assoc,
        List.getElem?_append_right (Nat.le_add_right ..), Nat.add_sub_cancel_left]
      exact ih (by simpa using here)

theorem getElem?_flatMap_range {β : Type} {f : Nat → List β} {n k i s : Nat}
    (length : ∀ a, (f a).length = k) (below : i < n) (inside : s < k) :
    ((List.range n).flatMap f)[i * k + s]? = (f i)[s]? := by
  have found := getElem?_flatMap (f := f) (List.getElem?_range below)
    (inside.trans_eq (length i).symm)
  simpa [length, List.take_range, Nat.min_eq_left below.le] using found

theorem length_flatMap_range {β : Type} {f : Nat → List β} {n k : Nat}
    (length : ∀ a, (f a).length = k) : ((List.range n).flatMap f).length = n * k := by
  simp [List.length_flatMap, length]

theorem foldl_append_toArray {α β : Type} (f : α → List β) (items : List α) (data : Array β) :
    items.foldl (fun data a => data ++ (f a).toArray) data =
      data ++ (items.flatMap f).toArray := by
  induction items generalizing data with
  | nil => simp
  | cons a items ih => simp [ih, Array.append_assoc]

theorem mul_add_lt {a b m n : Nat} (outer : a < m) (inner : b < n) : a * n + b < m * n :=
  calc a * n + b < a * n + n := Nat.add_lt_add_left inner _
    _ = (a + 1) * n := (Nat.succ_mul a n).symm
    _ ≤ m * n := Nat.mul_le_mul_right n outer

theorem mul_add_inj {a b c d n : Nat} (left : b < n) (right : d < n)
    (same : a * n + b = c * n + d) : a = c ∧ b = d := by
  have positive : 0 < n := by omega
  have first := (Nat.div_mod_unique positive).2 ⟨by rw [Nat.mul_comm n a, Nat.add_comm], left⟩
  have second := (Nat.div_mod_unique positive).2 ⟨by rw [Nat.mul_comm n c, Nat.add_comm], right⟩
  rw [same] at first
  exact ⟨first.1.symm.trans second.1, first.2.symm.trans second.2⟩

/-! ## One layer -/

/-- The cube starts at `corner`, and the far face of its lattice keeps within the words. -/
structure CubeCoord.Reaches (cube : CubeCoord) (corner : BlockPos) : Prop where
  located : cube.minBlock = .ok corner
  far : ∃ far, corner.offset 16 16 16 = .ok far

theorem CubeCoord.Reaches.upper {cube : CubeCoord} {corner : BlockPos}
    (reaches : cube.Reaches corner) (axis : Axis) :
    (corner.along axis).toInt + 16 ≤ 2147483647 := by
  obtain ⟨far, ends⟩ := reaches.far
  obtain ⟨x, y, z⟩ := BlockPos.offset_eq_ok_iff.1 ends
  have sixteen : (16 : Int32).toInt = 16 := rfl
  have upper := (far.along axis).toInt_lt
  cases axis <;> simp only [BlockPos.along] at upper ⊢ <;> omega

def axisPoint (corner : Int32) (span i : Nat) : Int32 := Int32.ofInt (corner.toInt + (i * span : Nat))

theorem toInt_axisPoint {corner : Int32} {span i : Nat} (upper : corner.toInt + 16 ≤ 2147483647)
    (short : i * span ≤ cubeSize) :
    (axisPoint corner span i).toInt = corner.toInt + (i * span : Nat) := by
  have lower := corner.le_toInt
  simp only [cubeSize] at short
  exact Int32.toInt_ofInt_of_le (by omega) (by omega)

theorem mul_span_le {span i : Nat} (below : i < cubeSize / span + 1) : i * span ≤ cubeSize :=
  (Nat.mul_le_mul_right span (Nat.le_of_lt_succ below)).trans (Nat.div_mul_le_self ..)

theorem axisPoints_eq {corner : Int32} {span : Nat} (divides : span ∣ cubeSize)
    (upper : corner.toInt + 16 ≤ 2147483647) :
    LayerSet.axisPoints corner (Int32.ofNat span) (cubeSize / span + 1) =
      .ok ((List.range (cubeSize / span + 1)).map fun i =>
        (axisPoint corner span i).toFloat) := by
  refine mapM_list_eq_ok fun i member => ?_
  have below := List.mem_range.1 member
  have short := mul_span_le below
  have spanSmall : span ≤ 16 := Nat.le_of_dvd (by decide) divides
  have small : i ≤ 16 := Nat.le_of_lt_succ (below.trans_le (Nat.succ_le_succ (Nat.div_le_self ..)))
  have step : Checked.mul (Int32.ofNat i) (Int32.ofNat span) = .ok (Int32.ofNat (i * span)) := by
    refine (Checked.int32_eq_ok_iff _ _).2 ?_
    simp only [cubeSize] at short
    rw [Int32.toInt_ofNat_of_lt (by omega), Int32.toInt_ofNat_of_lt (by omega),
      Int32.toInt_ofNat_of_lt (by omega), Nat.cast_mul]
  have point : Checked.add corner (Int32.ofNat (i * span)) = .ok (axisPoint corner span i) := by
    refine (Checked.int32_eq_ok_iff _ _).2 ?_
    rw [toInt_axisPoint upper short]
    simp only [cubeSize] at short
    rw [Int32.toInt_ofNat_of_lt (by omega)]
  simp only [step, point, ok_bind, pure_eq]

namespace NoiseLayer

variable {l : NoiseLayer} {p q : LocalPos}

def OnLattice (l : NoiseLayer) (p : LocalPos) : Prop :=
  p.x < l.lattice ∧ p.y < l.lattice ∧ p.z < l.lattice

def position (l : NoiseLayer) (corner : BlockPos) (p : LocalPos) (axis : Axis) : Int :=
  (corner.along axis).toInt + (p.along axis * l.span : Nat)

def pointAt (l : NoiseLayer) (corner : BlockPos) (p : LocalPos) : BlockPos :=
  ⟨axisPoint corner.x l.span p.x, axisPoint corner.y l.span p.y, axisPoint corner.z l.span p.z⟩

def sampleAt (l : NoiseLayer) (seed : Int32) (w : BlockPos) : Float :=
  l.sample seed w.x.toFloat w.y.toFloat w.z.toFloat

def row (l : NoiseLayer) (seed : Int32) (corner : BlockPos) (y z : Nat) : List Float :=
  (List.range l.lattice).map fun x => l.sampleAt seed (l.pointAt corner ⟨x, y, z⟩)

def level (l : NoiseLayer) (seed : Int32) (corner : BlockPos) (y : Nat) : List Float :=
  (List.range l.lattice).flatMap (l.row seed corner y)

def block (l : NoiseLayer) (seed : Int32) (corner : BlockPos) : List Float :=
  (List.range l.lattice).flatMap (l.level seed corner)

def place (l : NoiseLayer) (p : LocalPos) : Nat := (p.y * l.lattice + p.z) * l.lattice + p.x

theorem lattice_eq (divides : l.span ∣ cubeSize) : l.lattice = cubeSize / l.span + 1 := by
  have positive : 0 < l.span := Nat.pos_of_dvd_of_pos divides (by decide)
  rw [lattice, Nat.max_eq_left positive]

theorem place_lt (on : l.OnLattice p) : l.place p < l.samples :=
  mul_add_lt (mul_add_lt on.2.1 on.2.2) on.1

theorem place_inj (left : l.OnLattice p) (right : l.OnLattice q) (same : l.place p = l.place q) :
    p = q := by
  obtain ⟨row, x⟩ := mul_add_inj left.1 right.1 same
  obtain ⟨y, z⟩ := mul_add_inj left.2.2 right.2.2 row
  cases p
  cases q
  exact (LocalPos.mk.injEq ..).mpr ⟨x, y, z⟩

theorem length_row (seed : Int32) (corner : BlockPos) (y z : Nat) :
    (l.row seed corner y z).length = l.lattice := by
  rw [row, List.length_map, List.length_range]

theorem length_level (seed : Int32) (corner : BlockPos) (y : Nat) :
    (l.level seed corner y).length = l.lattice * l.lattice :=
  length_flatMap_range (length_row seed corner y)

theorem length_block (l : NoiseLayer) (seed : Int32) (corner : BlockPos) :
    (l.block seed corner).length = l.samples := by
  rw [block, length_flatMap_range (length_level seed corner), samples, Nat.mul_assoc]

theorem getElem?_block (seed : Int32) (corner : BlockPos) (on : l.OnLattice p) :
    (l.block seed corner)[l.place p]? = some (l.sampleAt seed (l.pointAt corner p)) := by
  obtain ⟨x, y, z⟩ := on
  -- the place counts whole rows; a level is `lattice` rows
  have grouped : l.place p = p.y * (l.lattice * l.lattice) + (p.z * l.lattice + p.x) := by
    rw [place, Nat.add_mul, Nat.mul_assoc, Nat.add_assoc]
  rw [grouped, block, getElem?_flatMap_range (length_level seed corner) y (mul_add_lt z x), level,
    getElem?_flatMap_range (length_row seed corner p.y) z x, row, List.getElem?_map,
    List.getElem?_range x, Option.map_some]

theorem toInt_pointAt {cube : CubeCoord} {corner : BlockPos} (reaches : cube.Reaches corner)
    (divides : l.span ∣ cubeSize) (on : l.OnLattice p) (axis : Axis) :
    ((l.pointAt corner p).along axis).toInt = l.position corner p axis := by
  obtain ⟨x, y, z⟩ := on
  rw [lattice_eq divides] at x y z
  have upper := reaches.upper axis
  cases axis with
  | x => exact toInt_axisPoint upper (mul_span_le x)
  | y => exact toInt_axisPoint upper (mul_span_le y)
  | z => exact toInt_axisPoint upper (mul_span_le z)

theorem computeLayer_eq {cube : CubeCoord} {corner : BlockPos} (reaches : cube.Reaches corner)
    (divides : l.span ∣ cubeSize) (seed : Int32) (data : Array Float) :
    LayerSet.computeLayer l seed corner data = .ok (data ++ (l.block seed corner).toArray) := by
  have xs := axisPoints_eq divides (reaches.upper .x)
  have ys := axisPoints_eq divides (reaches.upper .y)
  have zs := axisPoints_eq divides (reaches.upper .z)
  simp only [BlockPos.along, ← lattice_eq divides] at xs ys zs
  simp only [LayerSet.computeLayer, xs, ys, zs, ok_bind, pure_eq, List.foldl_push_eq_append,
    foldl_append_toArray, List.map_map, List.flatMap_map]
  rfl

end NoiseLayer

/-! ## All layers -/

namespace LayerSet

variable {set : LayerSet} {cube : CubeCoord} {corner : BlockPos} {i : Nat} {l : NoiseLayer}
  {p : LocalPos}

def startOf (layers : List NoiseLayer) (i : Nat) : Nat :=
  ((layers.take i).map NoiseLayer.samples).sum

theorem startOf_succ {layers : List NoiseLayer} (here : layers[i]? = some l) :
    startOf layers (i + 1) = startOf layers i + l.samples := by
  rw [startOf, List.take_add_one, here, List.map_append, List.sum_append]
  rfl

theorem startOf_mono (layers : List NoiseLayer) : Monotone (startOf layers) := by
  refine monotone_nat_of_le_succ fun i => ?_
  rw [startOf, startOf, List.take_add_one, List.map_append, List.sum_append]
  exact Nat.le_add_right ..

def block (set : LayerSet) (corner : BlockPos) (l : NoiseLayer) : List Float :=
  l.block (noiseSeed set.seed l.salt) corner

def gridAt (set : LayerSet) (cube : CubeCoord) (corner : BlockPos) : NoiseGrid where
  world := set.world
  cube := cube
  fingerprint := set.fingerprint
  spans := (set.layers.map NoiseLayer.span).toArray
  offsets := ((List.range set.layers.length).map (startOf set.layers)).toArray
  data := (set.layers.flatMap (set.block corner)).toArray

theorem computeLayers_eq (set : LayerSet) {layers : List NoiseLayer} (reaches : cube.Reaches corner)
    (divides : ∀ l ∈ layers, l.span ∣ cubeSize) (offsets : Array Nat) (data : Array Float) :
    computeLayers set.seed corner layers offsets data =
      .ok (offsets ++ ((List.range layers.length).map fun i =>
        data.size + startOf layers i).toArray,
        data ++ (layers.flatMap (set.block corner)).toArray) := by
  induction layers generalizing offsets data with
  | nil => simp [computeLayers]
  | cons l layers ih =>
    rw [List.forall_mem_cons] at divides
    rw [computeLayers, NoiseLayer.computeLayer_eq reaches divides.1, ok_bind, ih divides.2]
    -- the first layer starts where the data ended, the others further on by its samples
    have later (i : Nat) : startOf (l :: layers) (i + 1) = l.samples + startOf layers i := by
      rw [startOf, List.take_succ_cons, List.map_cons, List.sum_cons, startOf]
    have first : startOf (l :: layers) 0 = 0 := rfl
    simp [List.range_succ_eq_map, later, first, NoiseLayer.length_block, block, Function.comp_def,
      Nat.add_assoc]

theorem compute_eq (reaches : cube.Reaches corner)
    (divides : ∀ l ∈ set.layers, l.span ∣ cubeSize) (buffer : Array Float) :
    set.compute cube buffer = .ok (set.gridAt cube corner) := by
  rw [compute_buffer, compute, reaches.located, ok_bind]
  rw [set.computeLayers_eq reaches divides, ok_bind]
  simp [gridAt]

theorem size_gridAt (set : LayerSet) (cube : CubeCoord) (corner : BlockPos) :
    (set.gridAt cube corner).data.size = startOf set.layers set.layers.length := by
  simp [gridAt, startOf, block, List.length_flatMap, NoiseLayer.length_block]

theorem gridSize_eq (set : LayerSet) : set.gridSize = startOf set.layers set.layers.length := by
  rw [startOf, List.take_length, List.sum_eq_foldl, List.foldl_map]
  rfl

end LayerSet

end Karst
