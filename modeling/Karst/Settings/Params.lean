import Karst.Block
import Karst.Cache.Tiered
import Karst.Noise.Layers

namespace Karst

structure CaveParams where
  rarity : UInt32 := 4
  cavernRarity : UInt32 := 16
  maxInitNodes : UInt32 := 14
  maxCavernArms : UInt32 := 4
  minRadius : Float := 1.5
  tunnelYScale : Float := 1
  cavernYScale : Float := 0.5
  floorCutoff : Float := -0.7
  carveSkipRarity : UInt32 := 4
  steepRarity : UInt32 := 6
  sizeBoostRarity : UInt32 := 10
  waterThreshold : Nat := 4
  lavaLevel : Option Int32 := none
  carvable : List Block := [.stone, .bedrock]
deriving Inhabited

structure PocketParams where
  rarity : UInt32 := 48
  minRadius : Float := 2.5
  maxRadius : Float := 6
  yScale : Float := 0.6
  fluid : Block := .water
deriving Inhabited

structure PrecalcParams where
  enable : Bool := true
  workers : Nat := 2
  queueCapacity : Nat := 256
  cacheCapacity : Nat := 1024
  timeToLive : Nat := 30000000000
deriving Inhabited

structure TerrainParams where
  seaLevel : Int32 := 0
  groundLevel : Int32 := 0
  verticalScale : Float := 24
  detailWeight : Float := 0.2
deriving Inhabited

def densityLayer : NoiseLayer := ⟨"density", 0, 0.012, 4, 4⟩

def detailLayer : NoiseLayer := ⟨"detail", 0x5eed, 0.06, 1, 2⟩

structure Params where
  range : Int32 := 8
  cavesEnable : Bool := true
  pocketsEnable : Bool := true
  caves : CaveParams := {}
  pockets : PocketParams := {}
  cacheTiers : List Nat := [10000000000, 25000000000, 100000000000]
  poolCapacity : Nat := 64
  precalc : PrecalcParams := {}
  layers : List NoiseLayer := [densityLayer, detailLayer]
  terrain : TerrainParams := {}
deriving Inhabited

structure World where
  id : UInt32
  seed : UInt64
  params : Params
deriving Inhabited

def World.layerSet (world : World) : LayerSet := ⟨world.id, world.seed, world.params.layers⟩

end Karst
