import Karst.Pipeline
import Karst.Proofs.Feature.Replay
import Karst.Proofs.Feature.Transparency
import Karst.Proofs.Terrain

namespace Karst

open Guarded

variable {σ : Type}

structure Outcome where
  carved : Nat
  filled : Nat
  cube : Cube

namespace Outcome

def total (o : Outcome) : Nat := o.carved + o.filled

structure Same (o other : Outcome) : Prop where
  carved : o.carved = other.carved
  filled : o.filled = other.filled
  cube : Cube.Same o.cube other.cube

end Outcome

namespace Plain

def replay (enable : Bool) (generator : Generator σ) (world : World) (cube : Cube)
    (biomes : BiomeSource) : Guarded (Nat × Cube) :=
  if enable then generator.uncached world cube biomes else .ok (0, cube)

def generate (world : World) (cube : Cube) (biomes : BiomeSource) : Guarded Outcome := do
  let p := world.params
  let (carved, cube) ← replay p.cavesEnable (caveGenerator p.range p.caves) world cube biomes
  let (filled, cube) ← replay p.pocketsEnable (pocketGenerator p.pockets) world cube biomes
  return ⟨carved, filled, cube⟩

def fillBaseTerrain (world : World) (cube : Cube) : Guarded Cube := do
  let layers := world.layerSet
  let grid ← layers.compute cube.coord #[]
  (Terrain.ofLayers layers world.params.terrain).fill grid cube

def generateFull (world : World) (cube : Cube) (biomes : BiomeSource) : Guarded Outcome := do
  let cube ← fillBaseTerrain world cube
  generate world cube biomes

variable (world : World) {a b : Cube}

theorem replay_same (enable : Bool) {generator : Generator σ} (sees : generator.SeesBlocksOnly)
    (same : Cube.Same a b) (biomes : BiomeSource) :
    Alike (fun x y => x.1 = y.1 ∧ Cube.Same x.2 y.2) (replay enable generator world a biomes)
      (replay enable generator world b biomes) := by
  unfold replay
  split
  case isTrue => exact sees.uncached biomes same
  case isFalse => exact .ok ⟨rfl, same⟩

theorem generate_same (same : Cube.Same a b) (biomes : BiomeSource) :
    Alike Outcome.Same (generate world a biomes) (generate world b biomes) := by
  refine (replay_same world _ (caveGenerator_seesBlocksOnly _ _) same biomes).bind ?_
  rintro ⟨carved, a⟩ ⟨_, b⟩ ⟨rfl, same⟩
  refine (replay_same world _ (pocketGenerator_seesBlocksOnly _) same biomes).bind ?_
  rintro ⟨filled, a⟩ ⟨_, b⟩ ⟨rfl, same⟩
  exact .ok ⟨rfl, rfl, same⟩

theorem fillBaseTerrain_same (left : a.WellFormed) (right : b.WellFormed)
    (coord : a.coord = b.coord) :
    Alike Cube.Same (fillBaseTerrain world a) (fillBaseTerrain world b) := by
  simp only [fillBaseTerrain, coord]
  refine (Alike.of_eq rfl).bind ?_
  rintro grid _ rfl
  exact Terrain.fill_same _ grid left right coord

theorem generateFull_same (left : a.WellFormed) (right : b.WellFormed) (coord : a.coord = b.coord)
    (biomes : BiomeSource) :
    Alike Outcome.Same (generateFull world a biomes) (generateFull world b biomes) :=
  (fillBaseTerrain_same world left right coord).bind fun _ _ same => generate_same world same biomes

end Plain

end Karst
