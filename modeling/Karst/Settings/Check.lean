import Karst.Settings.Params

/-!
What settings have to satisfy before anything is generated with them. Of several misfits the first
is reported, sections and layers in order.
-/

namespace Karst

inductive Misfit where
  | rangeOutside (range : Int32)
  | belowOne (setting : String)
  | caveScales
  | pocketShape
  | pocketRadius
  | cacheWindows
  | precalcCapacities
  | layerSpan (name : String) (span : Nat)
  | layerStrength (name : String)
  | layerRepeated (name : String)
  | verticalScale
deriving DecidableEq, Repr

def Misfit.message : Misfit → String
  | .rangeOutside range => "features.range must be in 1..=32, got " ++ toString range.toInt
  | .belowOne setting => setting ++ " must be at least 1"
  | .caveScales => "caves radii and y scales must be positive"
  | .pocketShape => "pockets need 0 < min_radius <= max_radius and a positive y_scale"
  | .pocketRadius => "pockets.max_radius must not exceed 16"
  | .cacheWindows => "cache.tiers_ms needs at least one non-zero window"
  | .precalcCapacities => "precalc queue and cache capacities must be at least 1"
  | .layerSpan name span =>
      "noise layer '" ++ name ++ "' span " ++ toString span ++ " must divide 16"
  | .layerStrength name =>
      "noise layer '" ++ name ++ "' needs octaves >= 1 and a positive frequency"
  | .layerRepeated name => "duplicate noise layer '" ++ name ++ "'"
  | .verticalScale => "terrain.vertical_scale must be positive"

abbrev Verdict := Except Misfit Unit

def require (holds : Prop) [Decidable holds] (misfit : Misfit) : Verdict :=
  if holds then .ok () else .error misfit

theorem require_eq_ok_iff (holds : Prop) [Decidable holds] (misfit : Misfit) :
    require holds misfit = .ok () ↔ holds := by
  unfold require
  split <;> simp_all

def CaveParams.check (p : CaveParams) : Verdict := do
  require (1 ≤ p.rarity) (.belowOne "caves.rarity")
  require (1 ≤ p.cavernRarity) (.belowOne "caves.cavern_rarity")
  require (1 ≤ p.carveSkipRarity) (.belowOne "caves.carve_skip_rarity")
  require (1 ≤ p.steepRarity) (.belowOne "caves.steep_rarity")
  require (1 ≤ p.sizeBoostRarity) (.belowOne "caves.size_boost_rarity")

def CaveParams.checkShape (p : CaveParams) : Verdict := do
  require (1 ≤ p.maxCavernArms) (.belowOne "caves.max_cavern_arms")
  require (0 < p.minRadius ∧ 0 < p.tunnelYScale ∧ 0 < p.cavernYScale) .caveScales

def PocketParams.checkShape (p : PocketParams) : Verdict := do
  require (0 < p.minRadius ∧ p.minRadius ≤ p.maxRadius ∧ 0 < p.yScale) .pocketShape
  require (¬ 16 < p.maxRadius) .pocketRadius

def NoiseLayer.check (l : NoiseLayer) : Verdict := do
  require (0 < l.span ∧ cubeSize % l.span = 0) (.layerSpan l.name l.span)
  require (1 ≤ l.octaves ∧ 0 < l.frequency) (.layerStrength l.name)

def checkLayers (earlier : List NoiseLayer) : List NoiseLayer → Verdict
  | [] => .ok ()
  | l :: rest => do
      l.check
      require (∀ e ∈ earlier, e.name ≠ l.name) (.layerRepeated l.name)
      checkLayers (earlier ++ [l]) rest

def Params.check (p : Params) : Verdict := do
  require (1 ≤ p.range ∧ p.range ≤ 32) (.rangeOutside p.range)
  p.caves.check
  require (1 ≤ p.pockets.rarity) (.belowOne "pockets.rarity")
  p.caves.checkShape
  p.pockets.checkShape
  require (p.cacheTiers ≠ [] ∧ ∀ window ∈ p.cacheTiers, window ≠ 0) .cacheWindows
  require (p.precalc.queueCapacity ≠ 0 ∧ p.precalc.cacheCapacity ≠ 0) .precalcCapacities
  checkLayers [] p.layers
  require (0 < p.terrain.verticalScale) .verticalScale

end Karst
