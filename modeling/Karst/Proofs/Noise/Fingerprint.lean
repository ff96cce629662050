import Karst.Proofs.Mixing
import Karst.Proofs.Noise.Grid

namespace Karst

open Function

namespace NoiseLayer

def words (l : NoiseLayer) : List UInt64 :=
  [l.salt.toUInt32.toUInt64, l.frequency.toBits.toUInt64, l.octaves.toUInt64, UInt64.ofNat l.span]

theorem fingerprint_eq (l : NoiseLayer) (h : UInt64) :
    l.fingerprint h = l.words.foldl stir h := rfl

theorem fingerprint_injective (l : NoiseLayer) : Injective l.fingerprint :=
  foldl_stir_injective l.words

theorem fingerprint_congr {l m : NoiseLayer} (same : l.numbers = m.numbers) (h : UInt64) :
    l.fingerprint h = m.fingerprint h := by
  simp only [numbers, Prod.mk.injEq] at same
  simp only [fingerprint, same]

/-- The layers differ in one of their four numbers; a frequency counts by its bits. -/
inductive OneNumberApart (l m : NoiseLayer) : Prop
  | salt (apart : l.salt ≠ m.salt) (frequency : l.frequency.toBits = m.frequency.toBits)
      (octaves : l.octaves = m.octaves) (span : l.span = m.span)
  | frequency (salt : l.salt = m.salt) (apart : l.frequency.toBits ≠ m.frequency.toBits)
      (octaves : l.octaves = m.octaves) (span : l.span = m.span)
  | octaves (salt : l.salt = m.salt) (frequency : l.frequency.toBits = m.frequency.toBits)
      (apart : l.octaves ≠ m.octaves) (span : l.span = m.span)
  | span (salt : l.salt = m.salt) (frequency : l.frequency.toBits = m.frequency.toBits)
      (octaves : l.octaves = m.octaves) (apart : l.span ≠ m.span)

def Sized (l : NoiseLayer) : Prop := l.span < 2 ^ 64

theorem Sized.ofNat_ne {l m : NoiseLayer} (left : l.Sized) (right : m.Sized)
    (apart : l.span ≠ m.span) : UInt64.ofNat l.span ≠ UInt64.ofNat m.span := by
  intro same
  have numbers := congrArg UInt64.toNat same
  rw [UInt64.toNat_ofNat_of_lt' left, UInt64.toNat_ofNat_of_lt' right] at numbers
  exact apart numbers

theorem OneNumberApart.fingerprint_ne {l m : NoiseLayer} (apart : l.OneNumberApart m)
    (left : l.Sized) (right : m.Sized) (h : UInt64) : l.fingerprint h ≠ m.fingerprint h := by
  rw [fingerprint_eq, fingerprint_eq]
  cases apart with
  | salt apart frequency octaves span =>
    simp only [words, frequency, octaves, span]
    exact foldl_stir_ne [] _ (signedWord_injective.ne apart) h
  | frequency salt apart octaves span =>
    simp only [words, salt, octaves, span]
    exact foldl_stir_ne [_] _ (toUInt64_injective.ne apart) h
  | octaves salt frequency apart span =>
    simp only [words, salt, frequency, span]
    exact foldl_stir_ne [_, _] _ (toUInt64_injective.ne apart) h
  | span salt frequency octaves apart =>
    simp only [words, salt, frequency, octaves]
    exact foldl_stir_ne [_, _, _] _ (left.ofNat_ne right apart) h

/-! ## Lists of layers -/

def fingerprints (layers : List NoiseLayer) (h : UInt64) : UInt64 :=
  layers.foldl (fun h l => l.fingerprint h) h

theorem fingerprints_cons (l : NoiseLayer) (layers : List NoiseLayer) (h : UInt64) :
    fingerprints (l :: layers) h = fingerprints layers (l.fingerprint h) :=
  List.foldl_cons ..

theorem fingerprints_injective (layers : List NoiseLayer) : Injective (fingerprints layers) := by
  induction layers with
  | nil => exact injective_id
  | cons l layers ih =>
    intro v w same
    rw [fingerprints_cons, fingerprints_cons] at same
    exact l.fingerprint_injective (ih same)

theorem fingerprints_congr {first second : List NoiseLayer}
    (same : first.map numbers = second.map numbers) (h : UInt64) :
    fingerprints first h = fingerprints second h := by
  induction first generalizing second h with
  | nil =>
    cases second with
    | nil => rfl
    | cons m second => cases same
  | cons l first ih =>
    cases second with
    | nil => cases same
    | cons m second =>
      rw [List.map_cons, List.map_cons, List.cons.injEq] at same
      rw [fingerprints_cons, fingerprints_cons, fingerprint_congr same.1]
      exact ih same.2 _

structure OneLayerApart (first second : List NoiseLayer) (i : Nat) : Prop where
  layer : ∃ l m, first[i]? = some l ∧ second[i]? = some m ∧ l.OneNumberApart m
  others : ∀ j : Nat, j ≠ i → first[j]?.map numbers = second[j]?.map numbers

theorem map_numbers_eq {first second : List NoiseLayer}
    (same : ∀ j : Nat, first[j]?.map numbers = second[j]?.map numbers) :
    first.map numbers = second.map numbers := by
  refine List.ext_getElem? fun j => ?_
  rw [List.getElem?_map, List.getElem?_map, same]

/-- Layers before the changed one bring the same hash to it, and layers after it keep the
difference. -/
theorem fingerprints_ne {first second : List NoiseLayer} {i : Nat}
    (apart : OneLayerApart first second i) (left : ∀ l ∈ first, l.Sized)
    (right : ∀ m ∈ second, m.Sized) (h : UInt64) :
    fingerprints first h ≠ fingerprints second h := by
  obtain ⟨⟨l, m, atLeft, atRight, changed⟩, others⟩ := apart
  induction first generalizing second h i with
  | nil => simp at atLeft
  | cons x first ih =>
    cases second with
    | nil => simp at atRight
    | cons y second =>
      rw [List.forall_mem_cons] at left right
      rw [fingerprints_cons, fingerprints_cons]
      cases i with
      | zero =>
        obtain rfl : x = l := by simpa using atLeft
        obtain rfl : y = m := by simpa using atRight
        have rest : first.map numbers = second.map numbers := map_numbers_eq fun j => by
          simpa using others (j + 1) (by omega)
        rw [fingerprints_congr rest]
        exact (fingerprints_injective second).ne (changed.fingerprint_ne left.1 right.1 h)
      | succ i =>
        have head : x.numbers = y.numbers := by simpa using others 0 (by omega)
        have tail (j : Nat) (away : j ≠ i) : first[j]?.map numbers = second[j]?.map numbers := by
          simpa using others (j + 1) (by omega)
        rw [fingerprint_congr head]
        exact ih left.2 right.2 _ tail (by simpa using atLeft) (by simpa using atRight)

end NoiseLayer

namespace LayerSet

theorem fingerprint_eq (set : LayerSet) : set.fingerprint =
    NoiseLayer.fingerprints set.layers (stir set.seed set.world.toUInt64) := rfl

theorem fingerprint_inj {world : UInt32} {a b : UInt64} {layers : List NoiseLayer} :
    fingerprint ⟨world, a, layers⟩ = fingerprint ⟨world, b, layers⟩ ↔ a = b := by
  refine ⟨?_, fun same => by rw [same]⟩
  intro same
  exact stir_left_injective _ (NoiseLayer.fingerprints_injective layers same)

theorem SameNumbers.fingerprint_eq {a b : LayerSet} (world : a.world = b.world)
    (same : a.SameNumbers b) : a.fingerprint = b.fingerprint := by
  rw [LayerSet.fingerprint_eq, LayerSet.fingerprint_eq, world, same.1]
  exact NoiseLayer.fingerprints_congr same.2 _

/-- The sets differ in their seed alone, or in one number of one layer alone. -/
inductive OneChangeApart (a b : LayerSet) : Prop
  | seed (apart : a.seed ≠ b.seed)
      (numbers : a.layers.map NoiseLayer.numbers = b.layers.map NoiseLayer.numbers)
  | layer (i : Nat) (seed : a.seed = b.seed)
      (apart : NoiseLayer.OneLayerApart a.layers b.layers i)

def Sized (set : LayerSet) : Prop := ∀ l ∈ set.layers, l.Sized

theorem OneChangeApart.fingerprint_ne {a b : LayerSet} (change : a.OneChangeApart b)
    (world : a.world = b.world) (left : a.Sized) (right : b.Sized) :
    a.fingerprint ≠ b.fingerprint := by
  rw [LayerSet.fingerprint_eq, LayerSet.fingerprint_eq, world]
  cases change with
  | seed apart numbers =>
    rw [NoiseLayer.fingerprints_congr numbers]
    exact (NoiseLayer.fingerprints_injective b.layers).ne ((stir_left_injective _).ne apart)
  | layer i seed apart =>
    rw [seed]
    exact NoiseLayer.fingerprints_ne apart left right _

/-- One change of the seed or of a number makes every grid stale, in both directions; a change of
names makes none stale. -/
theorem stale_after_change {a b : LayerSet} (world : a.world = b.world) :
    (a.Sized → b.Sized → a.OneChangeApart b → a.fingerprint ≠ b.fingerprint ∧
      (∀ cube buffer grid, a.compute cube buffer = .ok grid → ∀ c, grid.fits b c = false) ∧
      ∀ cube buffer grid, b.compute cube buffer = .ok grid → ∀ c, grid.fits a c = false) ∧
    (a.SameNumbers b → a.fingerprint = b.fingerprint ∧
      ∀ cube buffer grid, a.compute cube buffer = .ok grid → grid.fits b cube = true) := by
  constructor
  · intro left right change
    have print := change.fingerprint_ne world left right
    refine ⟨print, ?_, ?_⟩
    · intro cube buffer grid computed
      exact fits_eq_false_of_compute computed print
    · intro cube buffer grid computed
      exact fits_eq_false_of_compute computed print.symm
  · intro same
    have print := same.fingerprint_eq world
    refine ⟨print, ?_⟩
    intro cube buffer grid computed
    exact (fits_iff_of_compute computed cube).2 ⟨world, print, rfl⟩

def twoLayers (name : String) (span : Nat) : LayerSet :=
  ⟨0, 9, [⟨"a", 1, 0.05, 2, 4⟩, ⟨name, 2, 0.1, 1, span⟩]⟩

theorem stale_after_respan :
    (twoLayers "b" 16).Sized ∧ (twoLayers "b" 8).Sized ∧
      (twoLayers "b" 16).OneChangeApart (twoLayers "b" 8) ∧
      (twoLayers "b" 16).fingerprint ≠ (twoLayers "b" 8).fingerprint ∧
      (∀ cube buffer grid, (twoLayers "b" 16).compute cube buffer = .ok grid →
        ∀ c, grid.fits (twoLayers "b" 8) c = false) ∧
      (twoLayers "b" 16).SameNumbers (twoLayers "c" 16) ∧
      ∀ cube buffer grid, (twoLayers "b" 16).compute cube buffer = .ok grid →
        grid.fits (twoLayers "c" 16) cube = true := by
  have sized (name : String) (span : Nat) (short : span < 2 ^ 64) :
      (twoLayers name span).Sized := by
    intro l member
    simp only [twoLayers, List.mem_cons, List.not_mem_nil, or_false] at member
    rcases member with rfl | rfl
    · exact (by decide : 4 < 2 ^ 64)
    · exact short
  have wide := sized "b" 16 (by decide)
  have narrow := sized "b" 8 (by decide)
  have change : (twoLayers "b" 16).OneChangeApart (twoLayers "b" 8) := by
    refine .layer 1 rfl ⟨⟨_, _, rfl, rfl, .span rfl rfl rfl (by decide)⟩, ?_⟩
    intro j away
    match j with
    | 0 => rfl
    | 1 => exact absurd rfl away
    | j + 2 => rfl
  have same : (twoLayers "b" 16).SameNumbers (twoLayers "c" 16) := ⟨rfl, rfl⟩
  have world (name : String) (span : Nat) :
      (twoLayers "b" 16).world = (twoLayers name span).world := rfl
  obtain ⟨print, stale, _⟩ := (stale_after_change (world "b" 8)).1 wide narrow change
  obtain ⟨_, fresh⟩ := (stale_after_change (world "c" 16)).2 same
  exact ⟨wide, narrow, change, print, stale, same, fresh⟩

end LayerSet

end Karst
