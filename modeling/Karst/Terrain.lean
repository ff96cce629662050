import Karst.Cube.Voxels
import Karst.Noise.Grid
import Karst.Settings.Params

/-!
Base terrain: stone where the density is positive, still water below the sea level, air elsewhere.
The density falls with height and varies with the layers named `density` and `detail`.
-/

namespace Karst

structure Terrain where
  density : Option Nat
  detail : Option Nat
  params : TerrainParams
deriving Inhabited

namespace Terrain

def ofLayers (set : LayerSet) (params : TerrainParams) : Terrain :=
  ⟨set.layerIndex? "density", set.layerIndex? "detail", params⟩

/-- How much higher than the ground the block is, in vertical scales, turned down. -/
def gradient (t : Terrain) (corner : BlockPos) (y : Nat) : Guarded Float := do
  let height ← Checked.add corner.y (Int32.ofNat y)
  let above ← Checked.sub height t.params.groundLevel
  return -above.toFloat / t.params.verticalScale

def layered (t : Terrain) (grid : NoiseGrid) (p : LocalPos) (base : Float) : Guarded Float := do
  let d ← match t.density with
    | some i => pure (base + (← grid.interpolate i p))
    | none => pure base
  match t.detail with
  | some i => return d + t.params.detailWeight * (← grid.interpolate i p)
  | none => return d

def densityAt (t : Terrain) (grid : NoiseGrid) (p : LocalPos) : Guarded Float := do
  let corner ← grid.cube.minBlock
  t.layered grid p (← t.gradient corner p.y)

def blockAt (t : Terrain) (grid : NoiseGrid) (belowSea : Bool) (p : LocalPos) : Guarded Block := do
  if 0 < (← t.densityAt grid p) then return .stone
  else if belowSea then return .water
  else return .air

def fillRow (t : Terrain) (grid : NoiseGrid) (belowSea : Bool) (y z : Nat) (cube : Cube) :
    Guarded Cube :=
  (List.range cubeSize).foldlM (fun cube x => do
    cube.set ⟨x, y, z⟩ (← t.blockAt grid belowSea ⟨x, y, z⟩)) cube

def fillLevel (t : Terrain) (grid : NoiseGrid) (corner : BlockPos) (y : Nat) (cube : Cube) :
    Guarded Cube := do
  let height ← Checked.add corner.y (Int32.ofNat y)
  (List.range cubeSize).foldlM
    (fun cube z => t.fillRow grid (height < t.params.seaLevel) y z cube) cube

def fill (t : Terrain) (grid : NoiseGrid) (cube : Cube) : Guarded Cube := do
  let corner ← cube.coord.minBlock
  (List.range cubeSize).foldlM (fun cube y => t.fillLevel grid corner y cube) cube

end Terrain

end Karst
