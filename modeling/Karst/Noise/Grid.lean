import Karst.Noise.Layers
import Karst.Fault

namespace Karst

structure NoiseGrid where
  world : UInt32
  cube : CubeCoord
  fingerprint : UInt64
  spans : Array Nat
  offsets : Array Nat
  data : Array Float
deriving Inhabited

namespace LayerSet

def axisPoints (corner : Int32) (span : Int32) (count : Nat) : Guarded (List Float) :=
  (List.range count).mapM fun i => do
    let step ← Checked.mul (Int32.ofNat i) span
    return (← Checked.add corner step).toFloat

def computeLayer (l : NoiseLayer) (seed : Int32) (corner : BlockPos) (data : Array Float) :
    Guarded (Array Float) := do
  let n := l.lattice
  let span := Int32.ofNat l.span
  let xs ← axisPoints corner.x span n
  let ys ← axisPoints corner.y span n
  let zs ← axisPoints corner.z span n
  return ys.foldl (fun data y => zs.foldl (fun data z =>
    xs.foldl (fun data x => data.push (l.sample seed x y z)) data) data) data

def computeLayers (seed : UInt64) (corner : BlockPos) :
    List NoiseLayer → Array Nat → Array Float → Guarded (Array Nat × Array Float)
  | [], offsets, data => .ok (offsets, data)
  | l :: rest, offsets, data => do
      let offsets := offsets.push data.size
      let data ← computeLayer l (noiseSeed seed l.salt) corner data
      computeLayers seed corner rest offsets data

/-- Samples every layer over `cube`; `buffer` lends its room and nothing of what it held. -/
def compute (set : LayerSet) (cube : CubeCoord) (buffer : Array Float) : Guarded NoiseGrid := do
  let corner ← cube.minBlock
  let (offsets, data) ← computeLayers set.seed corner set.layers #[] (buffer.take 0)
  return { world := set.world, cube, fingerprint := set.fingerprint,
           spans := (set.layers.map NoiseLayer.span).toArray, offsets, data }

end LayerSet

namespace NoiseGrid

def fits (grid : NoiseGrid) (set : LayerSet) (cube : CubeCoord) : Bool :=
  grid.world == set.world && grid.fingerprint == set.fingerprint && grid.cube == cube

def layerCount (grid : NoiseGrid) : Nat := grid.offsets.size

def lattice (grid : NoiseGrid) (i : Nat) (p : LocalPos) : Guarded Float := do
  let n := (← quotient cubeSize (← entry grid.spans i)) + 1
  entry grid.data ((← entry grid.offsets i) + (p.y * n + p.z) * n + p.x)

def lerp (a b t : Float) : Float := a + (b - a) * t

def interpolate (grid : NoiseGrid) (i : Nat) (p : LocalPos) : Guarded Float := do
  let span ← entry grid.spans i
  let x ← quotient p.x span
  let y ← quotient p.y span
  let z ← quotient p.z span
  let part (a : Nat) : Float := (a % span).toFloat / span.toFloat
  let tx := part p.x
  let tz := part p.z
  let c000 ← grid.lattice i ⟨x, y, z⟩
  let c100 ← grid.lattice i ⟨x + 1, y, z⟩
  let c010 ← grid.lattice i ⟨x, y + 1, z⟩
  let c110 ← grid.lattice i ⟨x + 1, y + 1, z⟩
  let c001 ← grid.lattice i ⟨x, y, z + 1⟩
  let c101 ← grid.lattice i ⟨x + 1, y, z + 1⟩
  let c011 ← grid.lattice i ⟨x, y + 1, z + 1⟩
  let c111 ← grid.lattice i ⟨x + 1, y + 1, z + 1⟩
  let low := lerp (lerp c000 c100 tx) (lerp c001 c101 tx) tz
  let high := lerp (lerp c010 c110 tx) (lerp c011 c111 tx) tz
  return lerp low high (part p.y)

end NoiseGrid

end Karst
