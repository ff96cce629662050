import Karst.Feature.Driver
import Karst.Generation.Caves
import Karst.Generation.Pockets
import Karst.Precalc.Basic
import Karst.Terrain

/-!
Generation of whole cubes: hints ahead of time, base terrain, then caves and pockets. What a world
holds is kept by its id and brought up to its seed on every call.
-/

namespace Karst

structure PipelineStats where
  cubes : Nat := 0
  pregenerated : Nat := 0
  carved : Nat := 0
  pocketVoxels : Nat := 0
  worlds : Nat := 0
  caves : FeatureStats := {}
  pockets : FeatureStats := {}
  precalc : PrecalcStats := {}
deriving DecidableEq, Repr

structure WorldState where
  seed : UInt64
  layers : LayerSet
  terrain : Terrain
  caves : Option (FeatureDriver CaveSeed)
  pockets : Option (FeatureDriver PocketSeed)

namespace WorldState

def ofWorld (world : World) : WorldState :=
  let p := world.params
  let layers := world.layerSet
  { seed := world.seed
    layers
    terrain := .ofLayers layers p.terrain
    caves := if p.cavesEnable then some (.ofParams (caveGenerator p.range p.caves) p) else none
    pockets := if p.pocketsEnable then some (.ofParams (pocketGenerator p.pockets) p) else none }

/-- Rebuilds the samplers; the feature caches notice the new seed by themselves. -/
def reseed (state : WorldState) (world : World) : WorldState :=
  let layers := world.layerSet
  { state with seed := world.seed, layers, terrain := .ofLayers layers world.params.terrain }

end WorldState

structure Readings where
  terrain : Instant
  caves : Instant
  pockets : Instant

def Readings.constant (now : Instant) : Readings := ⟨now, now, now⟩

structure CubeGenerator where
  precalc : NoisePrecalc
  worlds : Std.HashMap UInt32 WorldState := {}
  cubes : Nat := 0
  pregenerated : Nat := 0
  carved : Nat := 0
  pocketVoxels : Nat := 0

namespace CubeGenerator

def ofParams (params : Params) : CubeGenerator := { precalc := .ofParams params.precalc }

/-- Takes the state of a world out of the generator, loaded and brought up to its seed. -/
def checkOut (g : CubeGenerator) (world : World) : WorldState × CubeGenerator :=
  match g.worlds[world.id]? with
  | none => (.ofWorld world, g)
  | some state =>
      let g := { g with worlds := g.worlds.erase world.id }
      if state.seed = world.seed then (state, g)
      else (state.reseed world, { g with precalc := g.precalc.clearWorld world.id })

def checkIn (g : CubeGenerator) (world : World) (state : WorldState) : CubeGenerator :=
  { g with worlds := g.worlds.insert world.id state }

def pregenerate (g : CubeGenerator) (world : World) (cube : CubeCoord) : CubeGenerator :=
  if world.params.precalc.enable then
    let (state, g) := { g with pregenerated := g.pregenerated + 1 }.checkOut world
    let layers := state.layers
    let g := g.checkIn world state
    { g with precalc := g.precalc.submit layers cube }
  else g

def drain (g : CubeGenerator) (now : Instant) : CubeGenerator :=
  { g with precalc := g.precalc.drain now }

def fillBaseTerrain (g : CubeGenerator) (world : World) (cube : Cube) (now : Instant) :
    Guarded (Cube × CubeGenerator) := do
  let (state, g) := g.checkOut world
  let layers := state.layers
  let terrain := state.terrain
  let g := g.checkIn world state
  let (grid, precalc) ← g.precalc.take layers cube.coord now
  let cube ← terrain.fill grid cube
  return (cube, { g with precalc := precalc.recycle grid })

def replayDriver {σ : Type} (driver : Option (FeatureDriver σ)) (world : World) (cube : Cube)
    (biomes : BiomeSource) (now : Instant) :
    Guarded (Nat × Cube × Option (FeatureDriver σ)) := do
  match driver with
  | none => return (0, cube, none)
  | some driver =>
      let (written, cube, driver) ← driver.generateAt world cube biomes now
      return (written, cube, some driver)

def generate (g : CubeGenerator) (world : World) (cube : Cube) (biomes : BiomeSource)
    (clock : Readings) : Guarded (Nat × Cube × CubeGenerator) := do
  let (state, g) := g.checkOut world
  match state with
  | ⟨seed, layers, terrain, caves, pockets⟩ =>
      let (carved, cube, caves) ← replayDriver caves world cube biomes clock.caves
      let (filled, cube, pockets) ← replayDriver pockets world cube biomes clock.pockets
      let g := g.checkIn world ⟨seed, layers, terrain, caves, pockets⟩
      return (carved + filled, cube,
        { g with
          cubes := g.cubes + 1
          carved := g.carved + carved
          pocketVoxels := g.pocketVoxels + filled })

def generateFull (g : CubeGenerator) (world : World) (cube : Cube) (biomes : BiomeSource)
    (clock : Readings) : Guarded (Nat × Cube × CubeGenerator) := do
  let (cube, g) ← g.fillBaseTerrain world cube clock.terrain
  g.generate world cube biomes clock

def unload (g : CubeGenerator) (world : UInt32) : CubeGenerator :=
  if g.worlds.contains world then
    { g with worlds := g.worlds.erase world, precalc := g.precalc.clearWorld world }
  else g

def stats (g : CubeGenerator) : PipelineStats :=
  let states := g.worlds.toList.map Prod.snd
  { cubes := g.cubes
    pregenerated := g.pregenerated
    carved := g.carved
    pocketVoxels := g.pocketVoxels
    worlds := g.worlds.size
    caves := (states.filterMap fun s => s.caves.map FeatureDriver.stats).foldl .merge {}
    pockets := (states.filterMap fun s => s.pockets.map FeatureDriver.stats).foldl .merge {}
    precalc := g.precalc.stats }

end CubeGenerator

end Karst
