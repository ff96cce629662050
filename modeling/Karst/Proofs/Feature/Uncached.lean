import Karst.Feature.Driver
import Karst.Proofs.Feature.Growth

namespace Karst

variable {σ : Type}

namespace Generator

variable (generator : Generator σ) (world : World)

def seedsOf (cube : CubeCoord) : Guarded (Array σ) := do
  let (list, _) ← generator.discover world cube (.forCube world.seed cube) #[]
  return list

def grow (list : List σ) : Guarded (Forest σ) :=
  list.foldlM (fun forest seed => do
    let script ← generator.materialise world seed
    return forest.beside (.tree seed script.sets script.branches .none)) .none

def replayBuckets (biomes : BiomeSource) (buckets : List OpBucket) (progress : Replayed) :
    Guarded Replayed :=
  buckets.foldlM (fun progress bucket => do
    let step ← generator.replay world bucket progress.cube biomes progress.stream
    return { step with written := progress.written + step.written }) progress

def replayOrigin (biomes : BiomeSource) (target : CubeCoord) (progress : Replayed)
    (origin : CubeCoord) : Guarded Replayed := do
  let list ← generator.seedsOf world origin
  let forest ← generator.grow world list.toList
  generator.replayBuckets world biomes (forest.buckets target) progress

/-- The number of writes and the cube that replaying everything around it leaves. -/
def uncached (cube : Cube) (biomes : BiomeSource) : Guarded (Nat × Cube) := do
  let target := cube.coord
  let origins ← target.neighborhood generator.range
  let progress ← origins.foldlM (generator.replayOrigin world biomes target)
    ⟨0, cube, .forCube world.seed target⟩
  return (progress.written, progress.cube)

/-- Nothing of a world but its seed shows in the seeds of a cube or in what they grow into. Replaying
may look at the rest, for it always sees the world at hand. -/
structure ReadsSeedOnly : Prop where
  discover : ∀ world other : World, world.seed = other.seed →
    generator.discover world = generator.discover other
  materialise : ∀ world other : World, world.seed = other.seed →
    generator.materialise world = generator.materialise other

namespace ReadsSeedOnly

variable {generator} {world other : World}

theorem seedsOf_eq (pure : generator.ReadsSeedOnly) (same : world.seed = other.seed) :
    generator.seedsOf world = generator.seedsOf other := by
  funext cube
  rw [seedsOf, seedsOf, pure.discover world other same, same]

theorem grow_eq (pure : generator.ReadsSeedOnly) (same : world.seed = other.seed) :
    generator.grow world = generator.grow other := by
  funext list
  rw [grow, grow, pure.materialise world other same]

end ReadsSeedOnly

theorem replayBuckets_append (biomes : BiomeSource) (first second : List OpBucket)
    (progress : Replayed) :
    generator.replayBuckets world biomes (first ++ second) progress = (do
      let progress ← generator.replayBuckets world biomes first progress
      generator.replayBuckets world biomes second progress) := by
  rw [replayBuckets, List.foldlM_append]
  rfl

end Generator

end Karst
