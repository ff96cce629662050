import Karst.Cube.Voxels
import Karst.Proofs.Geometry.Position

namespace Karst

theorem Guarded.mapM_eq_ok {α β : Type} {f : α → Guarded β} {g : α → β} {items : Array α}
    (each : ∀ a ∈ items, f a = .ok (g a)) : items.mapM f = .ok (items.map g) := by
  obtain ⟨items⟩ := items
  rw [Array.mapM_eq_mapM_toList]
  rw [mapM_list_eq_ok fun a member => each a (by simpa using member)]
  simp [Functor.map, Except.map]

namespace Palette

structure WellFormed (p : Palette) : Prop where
  nodup : p.entries.toList.Nodup
  fits : p.entries.size ≤ capacity

theorem insert_spec {p : Palette} (wf : p.WellFormed) (b : Block) :
    (∃ i, p.insert b = (.existing i, p) ∧ p.entries[i.toNat]? = some b) ∨
    (∃ i, p.insert b = (.added i, ⟨p.entries.push b⟩) ∧ i.toNat = p.entries.size ∧
      (⟨p.entries.push b⟩ : Palette).WellFormed) ∨
    p.insert b = (.full, p) := by
  have fits := wf.fits
  simp only [capacity] at fits
  unfold insert
  cases found : p.entries.idxOf? b with
  | some i =>
    have listed : p.entries.toList.idxOf? b = some i := by
      rw [← List.idxOf?_toArray, Array.toArray_toList, found]
    obtain ⟨bound, here, _⟩ := List.idxOf?_eq_some_iff.1 listed
    rw [Array.length_toList] at bound
    refine .inl ⟨_, rfl, ?_⟩
    rw [UInt8.toNat_ofNat_of_lt' (by simp only [UInt8.size]; omega),
      Array.getElem?_eq_getElem bound]
    simpa using here
  | none =>
    simp only
    split
    case isTrue => exact .inr (.inr rfl)
    case isFalse room =>
      simp only [capacity] at room
      refine .inr (.inl ⟨_, rfl, ?_, ?_, ?_⟩)
      · rw [UInt8.toNat_ofNat_of_lt' (by simp only [UInt8.size]; omega)]
      · have missing : b ∉ p.entries := Array.idxOf?_eq_none_iff.1 found
        rw [Array.toList_push, List.nodup_append]
        refine ⟨wf.nodup, List.nodup_singleton b, ?_⟩
        rintro a member _ last rfl
        rw [List.mem_singleton] at last
        exact missing (last ▸ Array.mem_toList_iff.1 member)
      · simp only [Array.size_push, capacity]
        omega

theorem insert_singleton {fill b : Block} (different : fill ≠ b) :
    (singleton fill).insert b = (.added 1, ⟨#[fill, b]⟩) := by
  simp [insert, singleton, capacity, different]

end Palette

namespace Cube

def WellFormed (c : Cube) : Prop :=
  match c.storage with
  | .uniform _ => True
  | .indexed palette indices => palette.WellFormed ∧ indices.size = cubeVolume ∧
      ∀ p ∈ indices, p.toNat < palette.entries.size
  | .dense blocks => blocks.size = cubeVolume

theorem wellFormed_filled (coord : CubeCoord) (b : Block) : (filled coord b).WellFormed := trivial

theorem size_toArray {c : Cube} (wf : c.WellFormed) : c.toArray.size = cubeVolume := by
  obtain ⟨coord, storage⟩ := c
  cases storage with
  | uniform b => simp [toArray]
  | indexed palette indices =>
    obtain ⟨_, whole, _⟩ := wf
    simp [toArray, whole]
  | dense blocks => exact wf

theorem get_palette {palette : Palette} {p : UInt8} (below : p.toNat < palette.entries.size) :
    palette.get p = .ok (palette.entries.getD p.toNat .air) := by
  simp [Palette.get, entry, Array.getD_eq_getD_getElem?, Array.getElem?_eq_getElem below]

theorem getIndex_eq {c : Cube} (wf : c.WellFormed) {i : Nat} (bound : i < cubeVolume) :
    c.getIndex i = .ok (c.toArray.getD i .air) := by
  have whole := size_toArray wf
  obtain ⟨coord, storage⟩ := c
  cases storage with
  | uniform b => simp [getIndex, toArray, bound]
  | indexed palette indices =>
    obtain ⟨_, full, below⟩ := wf
    have inside : i < indices.size := full ▸ bound
    simp only [getIndex, entry, Array.getElem?_eq_getElem inside, Guarded.ok_bind,
      get_palette (below _ (Array.getElem_mem inside))]
    simp [toArray, inside]
  | dense blocks =>
    have inside : i < blocks.size := whole ▸ bound
    simp [getIndex, toArray, entry, inside]

def blockAt (c : Cube) (p : LocalPos) : Block := c.toArray.getD p.index .air

theorem get_eq_blockAt {c : Cube} (wf : c.WellFormed) {p : LocalPos} (inside : p.Inside) :
    c.get p = .ok (c.blockAt p) := getIndex_eq wf inside.index_lt

theorem writeAt_eq {α : Type} {items : Array α} {i : Nat} (bound : i < items.size) (item : α) :
    writeAt items i item = .ok (items.setIfInBounds i item) := if_pos bound

theorem write_indexed {coord : CubeCoord} {palette : Palette} {indices : Array UInt8}
    {old : Array Block} {i : Nat} {p : UInt8} {b : Block} (wf : palette.WellFormed)
    (full : indices.size = cubeVolume) (below : ∀ q ∈ indices, q.toNat < palette.entries.size)
    (spells : (indices.map fun q => palette.entries.getD q.toNat .air) = old)
    (names : palette.entries[p.toNat]? = some b) (bound : i < cubeVolume) :
    ∃ after, (do return ⟨coord, .indexed palette (← writeAt indices i p)⟩ : Guarded Cube) =
        .ok after ∧ after.WellFormed ∧ after.coord = coord ∧
      after.toArray = old.setIfInBounds i b := by
  rw [writeAt_eq (full ▸ bound)]
  refine ⟨_, rfl, ⟨wf, by simpa using full, ?_⟩, rfl, ?_⟩
  · intro q member
    rcases Array.mem_or_eq_of_mem_setIfInBounds member with old | rfl
    · exact below q old
    · exact (Array.getElem?_eq_some_iff.1 names).1
  · have spelt : palette.entries.getD p.toNat .air = b := by
      simp [Array.getD_eq_getD_getElem?, names]
    simp only [toArray, Array.map_setIfInBounds, spells, spelt]

theorem setIndex_spec {c : Cube} (wf : c.WellFormed) {i : Nat} (bound : i < cubeVolume)
    (b : Block) :
    ∃ after, c.setIndex i b = .ok after ∧ after.WellFormed ∧ after.coord = c.coord ∧
      after.toArray = c.toArray.setIfInBounds i b := by
  obtain ⟨coord, storage⟩ := c
  cases storage with
  | uniform fill =>
    simp only [setIndex]
    split
    case isTrue same =>
      subst same
      exact ⟨_, rfl, trivial, rfl, by simp [toArray]⟩
    case isFalse different =>
      rw [Palette.insert_singleton different]
      refine write_indexed ⟨?_, ?_⟩ (by simp) ?_ ?_ rfl bound
      · simpa using different
      · simp [Palette.capacity]
      · intro q member
        simp [(Array.mem_replicate.1 member).2]
      · simp [toArray]
  | indexed palette indices =>
    obtain ⟨palWf, whole, below⟩ := wf
    simp only [setIndex]
    rcases Palette.insert_spec palWf b with ⟨p, found, names⟩ | ⟨p, added, last, nextWf⟩ | full
    · rw [found]
      exact write_indexed palWf whole below rfl names bound
    · rw [added]
      refine write_indexed nextWf whole ?_ ?_ ?_ bound
      · intro q member
        have earlier := below q member
        simp only [Array.size_push]
        omega
      · refine Array.map_congr_left fun q member => ?_
        have earlier := below q member
        simp [Array.getD_eq_getD_getElem?, Array.getElem?_push, Nat.ne_of_lt earlier]
      · simp [last]
    · rw [full]
      simp only [Guarded.mapM_eq_ok fun q member => get_palette (below q member),
        Guarded.ok_bind]
      rw [writeAt_eq (by rwa [Array.size_map, whole])]
      exact ⟨_, rfl, by simpa [WellFormed] using whole, rfl, rfl⟩
  | dense blocks =>
    have whole : blocks.size = cubeVolume := wf
    simp only [setIndex]
    rw [writeAt_eq (whole ▸ bound)]
    exact ⟨_, rfl, by simpa [WellFormed] using whole, rfl, rfl⟩

theorem count_eq (c : Cube) (keep : Block → Bool) : c.count keep = c.toArray.countP keep := by
  obtain ⟨coord, storage⟩ := c
  cases storage with
  | uniform b => simp [count, toArray, Array.countP_replicate]
  | indexed palette indices => rfl
  | dense blocks => rfl

/-- Two well-formed cubes in one place with the same blocks, however each stores them. -/
structure Same (a b : Cube) : Prop where
  left : a.WellFormed
  right : b.WellFormed
  coord : a.coord = b.coord
  blocks : a.toArray = b.toArray

namespace Same

open Guarded

variable {a b : Cube}

theorem get_eq (same : Same a b) {p : LocalPos} (inside : p.Inside) : a.get p = b.get p := by
  rw [get, get, getIndex_eq same.left inside.index_lt, getIndex_eq same.right inside.index_lt,
    same.blocks]

theorem set (same : Same a b) {p : LocalPos} (inside : p.Inside) (block : Block) :
    Alike Same (a.set p block) (b.set p block) := by
  obtain ⟨x, left, xWf, xCoord, xBlocks⟩ := setIndex_spec same.left inside.index_lt block
  obtain ⟨y, right, yWf, yCoord, yBlocks⟩ := setIndex_spec same.right inside.index_lt block
  rw [Cube.set, Cube.set, left, right]
  refine .ok ⟨xWf, yWf, ?_, ?_⟩
  · rw [xCoord, yCoord, same.coord]
  · rw [xBlocks, yBlocks, same.blocks]

end Same

end Cube

end Karst
