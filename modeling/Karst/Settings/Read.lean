import Karst.Settings.Check
import Karst.Toml.Document

namespace Karst

inductive SettingsError where
  /-- There is no file, or it is not text. -/
  | unreadable
  | malformed
  | undecodable (cause : DecodeError)
  | invalid (misfit : Misfit)
deriving DecidableEq, Repr

def SettingsError.message : SettingsError → String
  | .unreadable => "failed to read worldgen config"
  | .malformed => "failed to parse worldgen config"
  | .undecodable cause =>
      "failed to parse worldgen config" ++ (cause.detail?.map (": " ++ ·)).getD ""
  | .invalid misfit => "invalid worldgen config: " ++ misfit.message

def millisecond : Nat := 1000000

def Data.toDuration (data : Data) : Decoded Nat :=
  return (← data.toCount) * millisecond

def featureField : String → Data → Params → Decoded Params
  | "range", data, p => return { p with range := ← data.toInt32 }
  | "caves", data, p => return { p with cavesEnable := ← data.toBoolean }
  | "pockets", data, p => return { p with pocketsEnable := ← data.toBoolean }
  | _, _, p => return p

def caveField : String → Data → CaveParams → Decoded CaveParams
  | "rarity", data, p => return { p with rarity := ← data.toUInt32 }
  | "cavern_rarity", data, p => return { p with cavernRarity := ← data.toUInt32 }
  | "max_init_nodes", data, p => return { p with maxInitNodes := ← data.toUInt32 }
  | "max_cavern_arms", data, p => return { p with maxCavernArms := ← data.toUInt32 }
  | "min_radius", data, p => return { p with minRadius := ← data.toReal }
  | "tunnel_y_scale", data, p => return { p with tunnelYScale := ← data.toReal }
  | "cavern_y_scale", data, p => return { p with cavernYScale := ← data.toReal }
  | "floor_cutoff", data, p => return { p with floorCutoff := ← data.toReal }
  | "carve_skip_rarity", data, p => return { p with carveSkipRarity := ← data.toUInt32 }
  | "steep_rarity", data, p => return { p with steepRarity := ← data.toUInt32 }
  | "size_boost_rarity", data, p => return { p with sizeBoostRarity := ← data.toUInt32 }
  | "water_threshold", data, p => return { p with waterThreshold := ← data.toCount }
  | "lava_level", data, p => return { p with lavaLevel := some (← data.toInt32) }
  | "carvable", data, p => return { p with carvable := ← data.toList Block.ofData }
  | _, _, p => return p

def pocketField : String → Data → PocketParams → Decoded PocketParams
  | "rarity", data, p => return { p with rarity := ← data.toUInt32 }
  | "min_radius", data, p => return { p with minRadius := ← data.toReal }
  | "max_radius", data, p => return { p with maxRadius := ← data.toReal }
  | "y_scale", data, p => return { p with yScale := ← data.toReal }
  | "fluid", data, p => return { p with fluid := ← Block.ofData data }
  | _, _, p => return p

def cacheField : String → Data → Params → Decoded Params
  | "tiers_ms", data, p => return { p with cacheTiers := ← data.toList Data.toDuration }
  | "pool_capacity", data, p => return { p with poolCapacity := ← data.toCount }
  | _, _, p => return p

def precalcField : String → Data → PrecalcParams → Decoded PrecalcParams
  | "enable", data, p => return { p with enable := ← data.toBoolean }
  | "workers", data, p => return { p with workers := ← data.toCount }
  | "queue_capacity", data, p => return { p with queueCapacity := ← data.toCount }
  | "cache_capacity", data, p => return { p with cacheCapacity := ← data.toCount }
  | "ttl_ms", data, p => return { p with timeToLive := ← data.toDuration }
  | _, _, p => return p

/-- A layer of which the name, the one setting without a default, may not have been read yet. -/
structure LayerDraft where
  name : Option String := none
  layer : NoiseLayer := ⟨"", 0, 0.02, 3, 4⟩

def layerField : String → Data → LayerDraft → Decoded LayerDraft
  | "name", data, d => return { d with name := some (← data.toText) }
  | "salt", data, d => return { d with layer := { d.layer with salt := ← data.toInt32 } }
  | "frequency", data, d => return { d with layer := { d.layer with frequency := ← data.toReal32 } }
  | "octaves", data, d => return { d with layer := { d.layer with octaves := ← data.toUInt32 } }
  | "span", data, d => return { d with layer := { d.layer with span := ← data.toCount } }
  | _, _, d => return d

def NoiseLayer.ofData (data : Data) : Decoded NoiseLayer := do
  let draft ← data.toRecord ["name", "salt", "frequency", "octaves", "span"] layerField {}
  match draft.name with
  | some name => return { draft.layer with name }
  | none => .error .mismatch

def noiseField : String → Data → Params → Decoded Params
  | "layers", data, p => return { p with layers := ← data.toList NoiseLayer.ofData }
  | _, _, p => return p

def terrainField : String → Data → TerrainParams → Decoded TerrainParams
  | "sea_level", data, p => return { p with seaLevel := ← data.toInt32 }
  | "ground_level", data, p => return { p with groundLevel := ← data.toInt32 }
  | "vertical_scale", data, p => return { p with verticalScale := ← data.toReal }
  | "detail_weight", data, p => return { p with detailWeight := ← data.toReal }
  | _, _, p => return p

def sectionField : String → Data → Params → Decoded Params
  | "features", data, p => data.toRecord ["range", "caves", "pockets"] featureField p
  | "caves", data, p => do
      let caves ← data.toRecord
        ["rarity", "cavern_rarity", "max_init_nodes", "max_cavern_arms", "min_radius",
          "tunnel_y_scale", "cavern_y_scale", "floor_cutoff", "carve_skip_rarity", "steep_rarity",
          "size_boost_rarity", "water_threshold", "lava_level", "carvable"] caveField p.caves
      return { p with caves }
  | "pockets", data, p => do
      let pockets ← data.toRecord
        ["rarity", "min_radius", "max_radius", "y_scale", "fluid"] pocketField p.pockets
      return { p with pockets }
  | "cache", data, p => data.toRecord ["tiers_ms", "pool_capacity"] cacheField p
  | "precalc", data, p => do
      let precalc ← data.toRecord
        ["enable", "workers", "queue_capacity", "cache_capacity", "ttl_ms"] precalcField p.precalc
      return { p with precalc }
  | "noise", data, p => data.toRecord ["layers"] noiseField p
  | "terrain", data, p => do
      let terrain ← data.toRecord
        ["sea_level", "ground_level", "vertical_scale", "detail_weight"] terrainField p.terrain
      return { p with terrain }
  | _, _, p => return p

namespace Params

/-- Settings that need not satisfy `check`. -/
def ofData (data : Data) : Decoded Params :=
  data.toRecord ["features", "caves", "pockets", "cache", "precalc", "noise", "terrain"]
    sectionField {}

def ofText (text : String) : Except SettingsError Params := do
  let data ← match Toml.read? text with
    | some data => pure data
    | none => .error .malformed
  let params ← (ofData data).mapError .undecodable
  params.check.mapError .invalid
  return params

def ofFile (contents : Option ByteArray) : Except SettingsError Params :=
  match contents.bind String.fromUTF8? with
  | some text => ofText text
  | none => .error .unreadable

end Params

end Karst
