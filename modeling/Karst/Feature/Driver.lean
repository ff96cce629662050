import Karst.Cache.Tiered
import Karst.Feature.Generator
import Karst.Feature.Tree

/-!
Generation of one kind of feature: seed lists and built trees are kept for the cubes around the one
being generated, and whatever reaches that cube is replayed into it. A new world seed drops all that
was kept and starts a new epoch.
-/

namespace Karst

structure EpochCube where
  epoch : Nat
  cube : CubeCoord
deriving DecidableEq, Hashable, Repr

structure FeatureCounts where
  cubes : Nat := 0
  seedLists : Nat := 0
  seeds : Nat := 0
  treesBuilt : Nat := 0
  treesReleased : Nat := 0
  voxelsWritten : Nat := 0
deriving DecidableEq, Repr

structure FeatureStats where
  counts : FeatureCounts := {}
  epoch : Nat := 0
  seedCache : TieredStats := {}
  treeCache : TieredStats := {}
  arena : ArenaStats := {}
  scratch : PoolStats := {}
deriving DecidableEq, Repr

def FeatureCounts.merge (a b : FeatureCounts) : FeatureCounts :=
  ⟨a.cubes + b.cubes, a.seedLists + b.seedLists, a.seeds + b.seeds, a.treesBuilt + b.treesBuilt,
    a.treesReleased + b.treesReleased, a.voxelsWritten + b.voxelsWritten⟩

def FeatureStats.merge (a b : FeatureStats) : FeatureStats :=
  ⟨a.counts.merge b.counts, max a.epoch b.epoch, a.seedCache.merge b.seedCache,
    a.treeCache.merge b.treeCache, a.arena.merge b.arena, a.scratch.merge b.scratch⟩

structure FeatureDriver (σ : Type) where
  generator : Generator σ
  rememberedSeed : Option UInt64 := none
  epoch : Nat := 0
  seeds : TieredCache EpochCube (Array σ)
  trees : TieredCache EpochCube (Array Handle)
  arena : FeatureArena σ := {}
  scratch : Pool (Array σ)
  counts : FeatureCounts := {}

namespace FeatureDriver

variable {σ : Type}

def start (generator : Generator σ) (windows : List Nat) (poolCapacity : Nat) : FeatureDriver σ :=
  { generator
    seeds := .ofWindows windows
    trees := .ofWindows windows
    scratch := .ofCapacity poolCapacity }

def ofParams (generator : Generator σ) (params : Params) : FeatureDriver σ :=
  start generator params.cacheTiers params.poolCapacity

def invalidate (d : FeatureDriver σ) : FeatureDriver σ :=
  { d with
    seeds := d.seeds.clear, trees := d.trees.clear, arena := d.arena.clear, epoch := d.epoch + 1 }

def syncSeed (d : FeatureDriver σ) (seed : UInt64) : FeatureDriver σ :=
  if d.rememberedSeed = some seed then d
  else { d.invalidate with rememberedSeed := some seed }

def releaseRoots (d : FeatureDriver σ) (roots : Array Handle) : FeatureDriver σ :=
  match d with
  | ⟨generator, rememberedSeed, epoch, seeds, trees, arena, scratch, counts⟩ =>
      ⟨generator, rememberedSeed, epoch, seeds, trees, roots.foldl FeatureArena.releaseTree arena,
        scratch, { counts with treesReleased := counts.treesReleased + roots.size }⟩

def expire (d : FeatureDriver σ) (now : Instant) : FeatureDriver σ :=
  match d with
  | ⟨generator, rememberedSeed, epoch, seeds, trees, arena, scratch, counts⟩ =>
      let (_, seeds) := seeds.maybeExpire now
      let (gone, trees) := trees.maybeExpire now
      gone.foldl (fun d (_, roots) => d.releaseRoots roots)
        ⟨generator, rememberedSeed, epoch, seeds, trees, arena, scratch, counts⟩

def discover (d : FeatureDriver σ) (world : World) (cube : CubeCoord) :
    Guarded (Array σ × FeatureDriver σ) := do
  let (buffer, scratch) := d.scratch.take #[]
  let (list, _) ← d.generator.discover world cube (.forCube world.seed cube) buffer
  return (list, { d with
    scratch := scratch.put list
    counts := { d.counts with seedLists := d.counts.seedLists + 1 } })

def seedList (d : FeatureDriver σ) (world : World) (cube : CubeCoord) (now : Instant) :
    Guarded (Array σ × FeatureDriver σ) := do
  let key := ⟨d.epoch, cube⟩
  match d.seeds.peek key with
  | some list => return (list, { d with seeds := d.seeds.hit key })
  | none =>
      let (list, d) ← d.discover world cube
      return (list, { d with seeds := d.seeds.place key now list })

def buildTrees (generator : Generator σ) (world : World) (arena : FeatureArena σ) (list : Array σ) :
    Guarded (Array Handle × FeatureArena σ) :=
  list.foldlM (fun (roots, arena) seed => do
    let script ← generator.materialise world seed
    let built ← FeatureArena.materialise arena seed script
    return (roots.push built.root, built.arena)) (#[], arena)

def treeList (d : FeatureDriver σ) (world : World) (cube : CubeCoord) (list : Array σ)
    (now : Instant) : Guarded (Array Handle × FeatureDriver σ) :=
  match d with
  | ⟨generator, rememberedSeed, epoch, seeds, trees, arena, scratch, counts⟩ => do
      let key := ⟨epoch, cube⟩
      let counts := { counts with seeds := counts.seeds + list.size }
      match trees.peek key with
      | some roots =>
          return (roots,
            ⟨generator, rememberedSeed, epoch, seeds, trees.hit key, arena, scratch, counts⟩)
      | none =>
          let (roots, arena) ← buildTrees generator world arena list
          let counts := { counts with treesBuilt := counts.treesBuilt + list.size }
          return (roots, ⟨generator, rememberedSeed, epoch, seeds, trees.place key now roots, arena,
            scratch, counts⟩)

def replayNodes (generator : Generator σ) (world : World) (biomes : BiomeSource)
    (target : CubeCoord) (nodes : List (FeatureNode σ)) (progress : Replayed) : Guarded Replayed :=
  nodes.foldlM (fun progress node =>
    match node.bucket? target with
    | some bucket => do
        let step ← generator.replay world bucket progress.cube biomes progress.stream
        return { step with written := progress.written + step.written }
    | none => return progress) progress

def replayTrees (d : FeatureDriver σ) (world : World) (biomes : BiomeSource) (target : CubeCoord)
    (roots : Array Handle) (progress : Replayed) : Guarded Replayed :=
  roots.foldlM (fun progress root =>
    replayNodes d.generator world biomes target (FeatureArena.visit d.arena root target) progress)
    progress

def replayNeighbour (world : World) (biomes : BiomeSource) (target : CubeCoord) (now : Instant)
    (d : FeatureDriver σ) (progress : Replayed) (neighbour : CubeCoord) :
    Guarded (FeatureDriver σ × Replayed) := do
  let (list, d) ← d.seedList world neighbour now
  if list.isEmpty then
    return (d, progress)
  else
    let (roots, d) ← d.treeList world neighbour list now
    let progress ← d.replayTrees world biomes target roots progress
    return (d, progress)

def generateAt (d : FeatureDriver σ) (world : World) (cube : Cube) (biomes : BiomeSource)
    (now : Instant) : Guarded (Nat × Cube × FeatureDriver σ) := do
  let d := (d.syncSeed world.seed).expire now
  let target := cube.coord
  let neighbours ← target.neighborhood d.generator.range
  let (d, progress) ← neighbours.foldlM
    (fun (d, progress) neighbour => replayNeighbour world biomes target now d progress neighbour)
    (d, ⟨0, cube, .forCube world.seed target⟩)
  let counts := { d.counts with
    cubes := d.counts.cubes + 1
    voxelsWritten := d.counts.voxelsWritten + progress.written }
  return (progress.written, progress.cube, { d with counts })

/-- The seeds of one cube; nothing expires. -/
def seedsAt (d : FeatureDriver σ) (world : World) (cube : CubeCoord) (now : Instant) :
    Guarded (Array σ × FeatureDriver σ) :=
  (d.syncSeed world.seed).seedList world cube now

def stats (d : FeatureDriver σ) : FeatureStats :=
  ⟨d.counts, d.epoch, d.seeds.stats, d.trees.stats, d.arena.stats, d.scratch.stats⟩

end FeatureDriver

end Karst
