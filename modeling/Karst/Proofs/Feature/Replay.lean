import Karst.Generation.Caves
import Karst.Generation.Pockets
import Karst.Proofs.Cube.Perimeter
import Karst.Proofs.Feature.Uncached

namespace Karst

open Guarded

structure Replayed.Same (r s : Replayed) : Prop where
  written : r.written = s.written
  cube : Cube.Same r.cube s.cube
  stream : r.stream = s.stream

namespace Replayed

def offer (allowed : VoxelOp → Block → Guarded Bool) (progress : Nat × Cube) (op : VoxelOp) :
    Guarded (Nat × Cube) := do
  let current ← progress.2.get op.pos
  if ← allowed op current then return (progress.1 + 1, ← progress.2.set op.pos op.block)
  else return progress

theorem guarded_eq (bucket : OpBucket) (c : Cube) (s : Stream)
    (allowed : VoxelOp → Block → Guarded Bool) :
    guarded bucket c s allowed =
      bucket.ops.toList.foldlM (offer allowed) (0, c) >>= fun out => .ok ⟨out.1, out.2, s⟩ := by
  rw [guarded, ← Array.foldlM_toList]
  rfl

theorem offer_same {op : VoxelOp} (inside : op.pos.Inside)
    (allowed : VoxelOp → Block → Guarded Bool) {x y : Nat × Cube}
    (same : x.1 = y.1 ∧ Cube.Same x.2 y.2) :
    Alike (fun x y => x.1 = y.1 ∧ Cube.Same x.2 y.2) (offer allowed x op) (offer allowed y op) := by
  obtain ⟨written, a⟩ := x
  obtain ⟨_, b⟩ := y
  obtain ⟨rfl, same⟩ := same
  simp only [offer, same.get_eq inside]
  refine (Alike.of_eq rfl).bind ?_
  rintro current _ rfl
  refine (Alike.of_eq rfl).bind ?_
  rintro admitted _ rfl
  cases admitted with
  | true =>
    refine (same.set inside op.block).bind ?_
    intro x y after
    exact .ok ⟨rfl, after⟩
  | false => exact .ok ⟨rfl, same⟩

theorem guarded_same {bucket : OpBucket} (inside : ∀ op ∈ bucket.ops, op.pos.Inside)
    {a b : Cube} (same : Cube.Same a b) (s : Stream) (allowed : VoxelOp → Block → Guarded Bool) :
    Alike Same (guarded bucket a s allowed) (guarded bucket b s allowed) := by
  rw [guarded_eq, guarded_eq]
  refine Alike.bind (Alike.foldlM (R := fun x y => x.1 = y.1 ∧ Cube.Same x.2 y.2)
    ⟨rfl, same⟩ ?_) ?_
  · intro op member x y same
    exact offer_same (inside op (by simpa using member)) allowed same
  · intro x y same
    exact .ok ⟨same.1, same.2, rfl⟩

end Replayed

namespace Generator

variable {σ : Type} {generator : Generator σ} {world : World}

/-- Replaying a bucket of writes in the cube depends on the blocks alone. -/
def SeesBlocksOnly (generator : Generator σ) : Prop :=
  ∀ (world : World) (bucket : OpBucket) (a b : Cube) (biomes : BiomeSource) (s : Stream),
    (∀ op ∈ bucket.ops, op.pos.Inside) → Cube.Same a b →
    Alike Replayed.Same (generator.replay world bucket a biomes s)
      (generator.replay world bucket b biomes s)

theorem SeesBlocksOnly.replayBuckets (sees : generator.SeesBlocksOnly) (biomes : BiomeSource)
    {buckets : List OpBucket} (inside : ∀ bucket ∈ buckets, ∀ op ∈ bucket.ops, op.pos.Inside)
    {r s : Replayed} (same : Replayed.Same r s) :
    Alike Replayed.Same (generator.replayBuckets world biomes buckets r)
      (generator.replayBuckets world biomes buckets s) := by
  refine Alike.foldlM same ?_
  intro bucket member r s same
  rw [same.stream, same.written]
  refine (sees world bucket r.cube s.cube biomes s.stream (inside bucket member) same.cube).bind ?_
  intro next other after
  exact .ok ⟨by rw [after.written], after.cube, after.stream⟩

theorem SeesBlocksOnly.uncached (sees : generator.SeesBlocksOnly) (biomes : BiomeSource)
    {a b : Cube} (same : Cube.Same a b) :
    Alike (fun x y => x.1 = y.1 ∧ Cube.Same x.2 y.2) (generator.uncached world a biomes)
      (generator.uncached world b biomes) := by
  simp only [Generator.uncached, same.coord]
  refine (Alike.of_eq rfl).bind ?_
  rintro origins _ rfl
  refine Alike.bind (Alike.foldlM (R := Replayed.Same) ⟨rfl, same, rfl⟩ ?_) ?_
  · intro origin _ r s same
    refine (Alike.of_eq rfl).bind ?_
    rintro list _ rfl
    refine (Alike.of_eq rfl).bind ?_
    rintro forest _ rfl
    exact sees.replayBuckets biomes (fun bucket member => Forest.pos_inside_of_mem_buckets member)
      same
  · intro r s same
    exact .ok ⟨same.written, same.cube⟩

end Generator

theorem caveGenerator_seesBlocksOnly (range : Int32) (p : CaveParams) :
    (caveGenerator range p).SeesBlocksOnly := by
  intro world bucket a b biomes s inside same
  simp only [caveGenerator, CaveSeed.replay]
  cases bucket.localBounds with
  | none => exact .ok ⟨rfl, same, rfl⟩
  | some box =>
    obtain ⟨lower, upper⟩ := box
    simp only [Cube.perimeterWater_eq same.left, Cube.perimeterWater_eq same.right,
      same.waterAround_eq, same.coord, ok_bind]
    split
    case isTrue => exact .ok ⟨rfl, same, rfl⟩
    case isFalse =>
      refine (Alike.of_eq rfl).bind ?_
      rintro corner _ rfl
      exact Replayed.guarded_same inside same s _

theorem pocketGenerator_seesBlocksOnly (p : PocketParams) :
    (pocketGenerator p).SeesBlocksOnly := by
  intro world bucket a b biomes s inside same
  exact Replayed.guarded_same inside same s _

theorem caveGenerator_readsSeedOnly (range : Int32) (p : CaveParams) :
    (caveGenerator range p).ReadsSeedOnly := ⟨fun _ _ _ => rfl, fun _ _ _ => rfl⟩

theorem pocketGenerator_readsSeedOnly (p : PocketParams) :
    (pocketGenerator p).ReadsSeedOnly := ⟨fun _ _ _ => rfl, fun _ _ _ => rfl⟩

end Karst
