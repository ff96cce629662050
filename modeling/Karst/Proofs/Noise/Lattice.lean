import Karst.Proofs.Noise.Layout

namespace Karst

open Guarded

/-! ## Slots -/

namespace NoiseGrid

def slot (grid : NoiseGrid) (i : Nat) (p : LocalPos) : Guarded Nat := do
  let n := (← quotient cubeSize (← entry grid.spans i)) + 1
  return (← entry grid.offsets i) + (p.y * n + p.z) * n + p.x

theorem lattice_eq (grid : NoiseGrid) (i : Nat) (p : LocalPos) :
    grid.lattice i p = grid.slot i p >>= entry grid.data := by
  simp only [lattice, slot, bind_assoc, pure_bind]

end NoiseGrid

theorem entry_eq_ok {α : Type} {items : Array α} {i : Nat} {item : α}
    (here : items[i]? = some item) : entry items i = .ok item := by
  rw [entry, here]

namespace LayerSet

variable {set : LayerSet} {cube : CubeCoord} {corner : BlockPos} {i : Nat} {l : NoiseLayer}
  {p : LocalPos}

theorem spans_gridAt (here : set.layers[i]? = some l) :
    (set.gridAt cube corner).spans[i]? = some l.span := by
  simp [gridAt, here]

theorem slot_gridAt (here : set.layers[i]? = some l) (divides : l.span ∣ cubeSize) :
    (set.gridAt cube corner).slot i p = .ok (startOf set.layers i + l.place p) := by
  have positive : l.span ≠ 0 := (Nat.pos_of_dvd_of_pos divides (by decide)).ne'
  have below : i < set.layers.length := (List.getElem?_eq_some_iff.1 here).1
  have start : (set.gridAt cube corner).offsets[i]? = some (startOf set.layers i) := by
    simp [gridAt, below]
  simp only [NoiseGrid.slot, entry_eq_ok (spans_gridAt here), entry_eq_ok start, quotient, positive,
    if_false, ok_bind, pure_eq, NoiseLayer.place, NoiseLayer.lattice_eq divides, Nat.add_assoc]

theorem lattice_gridAt (here : set.layers[i]? = some l) (divides : l.span ∣ cubeSize)
    (on : l.OnLattice p) : (set.gridAt cube corner).lattice i p =
      .ok (l.sampleAt (noiseSeed set.seed l.salt) (l.pointAt corner p)) := by
  rw [NoiseGrid.lattice_eq, slot_gridAt here divides, ok_bind]
  refine entry_eq_ok ?_
  have inside : l.place p < (set.block corner l).length := by
    rw [block, NoiseLayer.length_block]
    exact NoiseLayer.place_lt on
  have read := getElem?_flatMap here inside
  simp only [block, NoiseLayer.length_block, NoiseLayer.getElem?_block _ _ on] at read
  simpa [gridAt, startOf, block] using read

theorem slot_lt_startOf {layers : List NoiseLayer} {k : Nat} (here : layers[i]? = some l)
    (on : l.OnLattice p) (before : i < k) : startOf layers i + l.place p < startOf layers k :=
  calc startOf layers i + l.place p < startOf layers i + l.samples :=
        Nat.add_lt_add_left (NoiseLayer.place_lt on) _
    _ = startOf layers (i + 1) := (startOf_succ here).symm
    _ ≤ startOf layers k := startOf_mono _ before

theorem slot_inj {j : Nat} {m : NoiseLayer} {q : LocalPos} (left : set.layers[i]? = some l)
    (right : set.layers[j]? = some m) (onLeft : l.OnLattice p) (onRight : m.OnLattice q)
    (same : startOf set.layers i + l.place p = startOf set.layers j + m.place q) :
    i = j ∧ p = q := by
  rcases Nat.lt_trichotomy i j with before | rfl | after
  · have less := slot_lt_startOf left onLeft before
    omega
  · obtain rfl : l = m := Option.some_inj.1 (left.symm.trans right)
    exact ⟨rfl, NoiseLayer.place_inj onLeft onRight (Nat.add_left_cancel same)⟩
  · have less := slot_lt_startOf right onRight after
    omega

end LayerSet

/-! ## Between the samples -/

def LocalPos.corners (p : LocalPos) : List LocalPos :=
  [p, ⟨p.x + 1, p.y, p.z⟩, ⟨p.x, p.y + 1, p.z⟩, ⟨p.x + 1, p.y + 1, p.z⟩,
    ⟨p.x, p.y, p.z + 1⟩, ⟨p.x + 1, p.y, p.z + 1⟩, ⟨p.x, p.y + 1, p.z + 1⟩,
    ⟨p.x + 1, p.y + 1, p.z + 1⟩]

namespace NoiseGrid

/-- The value of layer `i` at `p` follows from the samples at `points`, and it takes each of them. -/
structure ReadsJust (grid : NoiseGrid) (i : Nat) (p : LocalPos) (points : List LocalPos) :
    Prop where
  enough : ∀ other : NoiseGrid, other.spans = grid.spans →
    (∀ q ∈ points, other.lattice i q = grid.lattice i q) →
      other.interpolate i p = grid.interpolate i p
  needed : ∀ other : NoiseGrid, other.spans = grid.spans →
    ∀ value, other.interpolate i p = .ok value →
      ∀ q ∈ points, ∃ sample, other.lattice i q = .ok sample

def cellOf (span : Nat) (p : LocalPos) : LocalPos := ⟨p.x / span, p.y / span, p.z / span⟩

variable {grid : NoiseGrid} {i span : Nat} {p : LocalPos}

theorem readsJust (known : grid.spans[i]? = some span) (positive : span ≠ 0) :
    grid.ReadsJust i p (cellOf span p).corners := by
  constructor
  · intro other spans agree
    have known' : other.spans[i]? = some span := spans ▸ known
    simp only [LocalPos.corners, cellOf, List.forall_mem_cons] at agree
    simp only [interpolate, entry_eq_ok known, entry_eq_ok known', quotient, positive, if_false,
      ok_bind, agree]
  · intro other spans value done
    have known' : other.spans[i]? = some span := spans ▸ known
    simp only [interpolate, entry_eq_ok known', quotient, positive, if_false, ok_bind,
      bind_eq_ok_iff] at done
    obtain ⟨_, c000, _, c100, _, c010, _, c110, _, c001, _, c101, _, c011, _, c111, _⟩ := done
    simp only [LocalPos.corners, cellOf, List.forall_mem_cons]
    exact ⟨⟨_, c000⟩, ⟨_, c100⟩, ⟨_, c010⟩, ⟨_, c110⟩, ⟨_, c001⟩, ⟨_, c101⟩, ⟨_, c011⟩, ⟨_, c111⟩,
      by simp⟩

theorem exists_interpolate (known : grid.spans[i]? = some span) (positive : span ≠ 0)
    (reads : ∀ q ∈ (cellOf span p).corners, ∃ sample, grid.lattice i q = .ok sample) :
    ∃ value, grid.interpolate i p = .ok value := by
  simp only [LocalPos.corners, cellOf, List.forall_mem_cons] at reads
  obtain ⟨⟨_, c000⟩, ⟨_, c100⟩, ⟨_, c010⟩, ⟨_, c110⟩, ⟨_, c001⟩, ⟨_, c101⟩, ⟨_, c011⟩, ⟨_, c111⟩,
    _⟩ := reads
  simp only [interpolate, entry_eq_ok known, quotient, positive, if_false, ok_bind, c000, c100,
    c010, c110, c001, c101, c011, c111, pure_eq]
  exact ⟨_, rfl⟩

end NoiseGrid

namespace NoiseLayer

variable {l : NoiseLayer} {p : LocalPos}

def Encloses (l : NoiseLayer) (first p : LocalPos) : Prop :=
  (first.x * l.span ≤ p.x ∧ p.x < (first.x + 1) * l.span) ∧
  (first.y * l.span ≤ p.y ∧ p.y < (first.y + 1) * l.span) ∧
  first.z * l.span ≤ p.z ∧ p.z < (first.z + 1) * l.span

theorem encloses_cellOf (divides : l.span ∣ cubeSize) (p : LocalPos) :
    l.Encloses (NoiseGrid.cellOf l.span p) p := by
  have positive : 0 < l.span := Nat.pos_of_dvd_of_pos divides (by decide)
  have axis (a : Nat) : a / l.span * l.span ≤ a ∧ a < (a / l.span + 1) * l.span :=
    ⟨Nat.div_mul_le_self .., Nat.lt_mul_of_div_lt (Nat.lt_succ_self _) positive⟩
  exact ⟨axis p.x, axis p.y, axis p.z⟩

theorem corners_onLattice (divides : l.span ∣ cubeSize) (inside : p.Inside) :
    ∀ q ∈ (NoiseGrid.cellOf l.span p).corners, l.OnLattice q := by
  have axis {a : Nat} (below : a < cubeSize) : a / l.span + 1 < l.lattice := by
    rw [lattice_eq divides]
    exact Nat.succ_lt_succ (Nat.div_lt_div_of_lt_of_dvd divides below)
  have x := axis inside.1
  have y := axis inside.2.1
  have z := axis inside.2.2
  simp only [LocalPos.corners, NoiseGrid.cellOf, List.forall_mem_cons, OnLattice]
  refine ⟨?_, ?_, ?_, ?_, ?_, ?_, ?_, ?_, by simp⟩ <;> omega

end NoiseLayer

/-! ## Every sample in its place -/

/-- The samples of the set over the cube that starts at `corner`, each in its place. -/
structure NoiseGrid.LaidOut (grid : NoiseGrid) (set : LayerSet) (corner : BlockPos) : Prop where
  size : grid.data.size = set.gridSize
  reads : ∀ i p, grid.lattice i p = grid.slot i p >>= entry grid.data
  samples : ∀ i l, set.layer? i = some l → ∀ p, l.OnLattice p → ∃ (slot : Nat) (w : BlockPos),
    grid.slot i p = .ok slot ∧ slot < grid.data.size ∧
      (∀ axis, (w.along axis).toInt = l.position corner p axis) ∧
      grid.lattice i p = .ok (set.sample i w.x.toFloat w.y.toFloat w.z.toFloat)
  apart : ∀ i j l m, set.layer? i = some l → set.layer? j = some m →
    ∀ p q, l.OnLattice p → m.OnLattice q → grid.slot i p = grid.slot j q → i = j ∧ p = q
  between : ∀ i l, set.layer? i = some l → ∀ p, p.Inside → ∃ first, l.Encloses first p ∧
    (∀ q ∈ first.corners, l.OnLattice q) ∧ grid.ReadsJust i p first.corners ∧
      ∃ value, grid.interpolate i p = .ok value

namespace LayerSet

variable {set : LayerSet} {cube : CubeCoord} {corner : BlockPos}

theorem sample_eq {i : Nat} {l : NoiseLayer} (here : set.layer? i = some l) (w : BlockPos) :
    set.sample i w.x.toFloat w.y.toFloat w.z.toFloat =
      l.sampleAt (noiseSeed set.seed l.salt) w := by
  rw [sample, here, NoiseLayer.sampleAt]

theorem dvd_of_layer {i : Nat} {l : NoiseLayer} (accepted : checkLayers [] set.layers = .ok ())
    (here : set.layers[i]? = some l) : l.span ∣ cubeSize :=
  span_dvd_of_checkLayers accepted l (List.mem_of_getElem? here)

theorem exists_laidOut (accepted : checkLayers [] set.layers = .ok ())
    (reaches : cube.Reaches corner) (buffer : Array Float) :
    ∃ grid, set.compute cube buffer = .ok grid ∧ grid.LaidOut set corner := by
  refine ⟨_, compute_eq reaches (span_dvd_of_checkLayers accepted) buffer, ?_,
    NoiseGrid.lattice_eq _, ?_, ?_, ?_⟩
  · rw [size_gridAt, gridSize_eq]
  · intro i l here p on
    have divides := dvd_of_layer accepted here
    refine ⟨_, l.pointAt corner p, slot_gridAt here divides, ?_, ?_, ?_⟩
    · rw [size_gridAt]
      exact slot_lt_startOf here on (List.getElem?_eq_some_iff.1 here).1
    · exact NoiseLayer.toInt_pointAt reaches divides on
    · rw [lattice_gridAt here divides on, sample_eq here]
  · intro i j l m left right p q onLeft onRight same
    rw [slot_gridAt left (dvd_of_layer accepted left),
      slot_gridAt right (dvd_of_layer accepted right)] at same
    injection same with same
    exact slot_inj left right onLeft onRight same
  · intro i l here p inside
    have divides := dvd_of_layer accepted here
    have positive : l.span ≠ 0 := (Nat.pos_of_dvd_of_pos divides (by decide)).ne'
    have corners := NoiseLayer.corners_onLattice divides inside
    refine ⟨_, NoiseLayer.encloses_cellOf divides p, corners,
      NoiseGrid.readsJust (spans_gridAt here) positive,
      NoiseGrid.exists_interpolate (spans_gridAt here) positive ?_⟩
    intro q member
    exact ⟨_, lattice_gridAt here divides (corners q member)⟩

def defaultWorld : World := ⟨3, 9, {}⟩

theorem exists_laidOut_at_edge :
    checkLayers [] defaultWorld.layerSet.layers = .ok () ∧
      CubeCoord.Reaches ⟨134217726, -134217728, -1⟩ ⟨2147483616, -2147483648, -16⟩ ∧
      ∃ grid, defaultWorld.layerSet.compute ⟨134217726, -134217728, -1⟩ #[1, 2] = .ok grid ∧
        grid.LaidOut defaultWorld.layerSet ⟨2147483616, -2147483648, -16⟩ := by
  have accepted : checkLayers [] defaultWorld.layerSet.layers = .ok () := rfl
  have reaches : CubeCoord.Reaches ⟨134217726, -134217728, -1⟩ ⟨2147483616, -2147483648, -16⟩ :=
    ⟨rfl, ⟨2147483632, -2147483632, 0⟩, rfl⟩
  exact ⟨accepted, reaches, exists_laidOut accepted reaches #[1, 2]⟩

end LayerSet

end Karst
