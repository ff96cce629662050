import Karst.Biome
import Karst.Cube.Voxels
import Karst.Feature.Bucket
import Karst.Feature.Script
import Karst.Random.Stream
import Karst.Settings.Params

namespace Karst

structure Replayed where
  written : Nat
  cube : Cube
  stream : Stream

structure Generator (σ : Type) where
  /-- How many cubes away from its origin a feature can write. -/
  range : Int32
  /-- Adds the seeds of a cube to a list, drawing from that cube's stream. -/
  discover : World → CubeCoord → Stream → Array σ → Guarded (Array σ × Stream)
  materialise : World → σ → Guarded (Script σ)
  /-- Applies a bucket to its cube, drawing from the stream of the cube being generated. -/
  replay : World → OpBucket → Cube → BiomeSource → Stream → Guarded Replayed

def Replayed.all (bucket : OpBucket) (cube : Cube) (stream : Stream) : Guarded Replayed := do
  let cube ← bucket.ops.foldlM (fun (cube : Cube) op => cube.set op.pos op.block) cube
  return ⟨bucket.size, cube, stream⟩

def Replayed.guarded (bucket : OpBucket) (cube : Cube) (stream : Stream)
    (allowed : VoxelOp → Block → Guarded Bool) : Guarded Replayed := do
  let (written, cube) ← bucket.ops.foldlM (fun (written, (cube : Cube)) op => do
    let current ← cube.get op.pos
    if ← allowed op current then return (written + 1, ← cube.set op.pos op.block)
    else return (written, cube)) (0, cube)
  return ⟨written, cube, stream⟩

end Karst
