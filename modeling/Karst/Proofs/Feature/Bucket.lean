import Karst.Feature.Bucket
import Karst.Proofs.Geometry.Position

namespace Karst

namespace OpBucket

def write (b : OpBucket) (p : BlockPos) (block : Block) : OpBucket :=
  if b.isTaken p.inCube then b else b.push p.inCube block

def file (cube : CubeCoord) (bucket : Option OpBucket) (w : BlockPos × Block) : Option OpBucket :=
  if CubeCoord.ofBlock w.1 = cube then some ((bucket.getD .empty).write w.1 w.2) else bucket

@[simp] theorem not_isTaken_empty (p : LocalPos) : empty.isTaken p = false := by
  have word : empty.words.getD (p.index / wordBits) 0 = 0 := by
    simp only [empty, Array.getD_eq_getD_getElem?, Array.getElem?_replicate]
    split <;> rfl
  simp [isTaken, word]

theorem push_ops (b : OpBucket) (p : LocalPos) (block : Block) :
    (b.push p block).ops = b.ops.push ⟨UInt8.ofNat p.x, UInt8.ofNat p.y, UInt8.ofNat p.z, block⟩ :=
  rfl

theorem recycle_eq_empty {b : OpBucket} (filled : b.ops ≠ #[]) : b.recycle = empty := by
  have taken : b.ops.isEmpty = false := by simpa using filled
  simp [recycle, taken]

theorem pos_pushed {p : LocalPos} (inside : p.Inside) (block : Block) :
    (VoxelOp.mk (UInt8.ofNat p.x) (UInt8.ofNat p.y) (UInt8.ofNat p.z) block).pos = p := by
  obtain ⟨x, y, z⟩ := inside
  simp only [cubeSize] at x y z
  simp [VoxelOp.pos, Nat.mod_eq_of_lt (show p.x < 256 by omega),
    Nat.mod_eq_of_lt (show p.y < 256 by omega), Nat.mod_eq_of_lt (show p.z < 256 by omega)]

end OpBucket

/-- The bucket that a list of writes leaves in `cube`. -/
def bucketOf (sets : List (BlockPos × Block)) (cube : CubeCoord) : Option OpBucket :=
  sets.foldl (OpBucket.file cube) none

variable {sets : List (BlockPos × Block)} {cube : CubeCoord} {bucket : OpBucket}

@[simp] theorem bucketOf_nil (cube : CubeCoord) : bucketOf [] cube = none := rfl

theorem bucketOf_concat (sets : List (BlockPos × Block)) (w : BlockPos × Block)
    (cube : CubeCoord) :
    bucketOf (sets ++ [w]) cube = OpBucket.file cube (bucketOf sets cube) w := by
  simp [bucketOf]

theorem bucketOf_eq_none (away : ∀ w ∈ sets, CubeCoord.ofBlock w.1 ≠ cube) :
    bucketOf sets cube = none := by
  induction sets using List.reverseRecOn with
  | nil => rfl
  | append_singleton sets w ih =>
    have last : CubeCoord.ofBlock w.1 ≠ cube := away w (by simp)
    rw [bucketOf_concat, ih fun w member => away w (by simp [member])]
    exact if_neg last

theorem forall_ops_bucketOf {P : VoxelOp → Prop}
    (filed : ∀ w ∈ sets, ∀ op : VoxelOp, op.pos = w.1.inCube → op.block = w.2 → P op)
    (found : bucketOf sets cube = some bucket) : ∀ op ∈ bucket.ops, P op := by
  induction sets using List.reverseRecOn generalizing bucket with
  | nil => cases found
  | append_singleton sets w ih =>
    have earlier : ∀ op ∈ ((bucketOf sets cube).getD .empty).ops, P op := by
      cases held : bucketOf sets cube with
      | none => simp [OpBucket.empty]
      | some old => exact ih (fun w member => filed w (by simp [member])) held
    rw [bucketOf_concat, OpBucket.file] at found
    split at found
    case isFalse => exact ih (fun w member => filed w (by simp [member])) found
    case isTrue =>
      cases found
      unfold OpBucket.write
      split
      case isTrue => exact earlier
      case isFalse =>
        intro op member
        rw [OpBucket.push_ops, Array.mem_push] at member
        rcases member with old | rfl
        · exact earlier op old
        · exact filed w (by simp) _ (OpBucket.pos_pushed w.1.inCube_inside w.2) rfl

theorem pos_inside_of_bucketOf (found : bucketOf sets cube = some bucket) :
    ∀ op ∈ bucket.ops, op.pos.Inside :=
  forall_ops_bucketOf (fun w _ _ pos _ => pos ▸ w.1.inCube_inside) found

theorem ops_ne_empty_of_bucketOf (found : bucketOf sets cube = some bucket) : bucket.ops ≠ #[] := by
  induction sets using List.reverseRecOn generalizing bucket with
  | nil => cases found
  | append_singleton sets w ih =>
    rw [bucketOf_concat, OpBucket.file] at found
    split at found
    case isFalse => exact ih found
    case isTrue =>
      cases found
      unfold OpBucket.write
      split
      case isTrue taken =>
        cases held : bucketOf sets cube with
        | none => simp [held] at taken
        | some old => exact ih held
      case isFalse => simp [OpBucket.push_ops]

end Karst
