import Karst.Proofs.Cube.Drafts
import Karst.Proofs.Generation.Overlay
import Karst.Proofs.Geometry.Axis

namespace Karst

open Guarded

/-! ## The cube and the place -/

/-- The lowest corner of the cube is in the world, and from there to `w` it is less than a cube's
side along every axis. -/
def CubeCoord.Holds (c : CubeCoord) (w : BlockPos) : Prop :=
  ∃ corner, c.minBlock = .ok corner ∧ ∀ axis,
    0 ≤ (w.along axis).toInt - (corner.along axis).toInt ∧
      (w.along axis).toInt - (corner.along axis).toInt ≤ 15

theorem CubeCoord.minBlock_eq_ok_iff_along {c : CubeCoord} {corner : BlockPos} :
    c.minBlock = .ok corner ↔
      ∀ axis, (corner.along axis).toInt = (c.along axis).toInt * 16 := by
  rw [minBlock_eq_ok_iff]
  constructor
  · rintro ⟨x, y, z⟩ axis
    cases axis with
    | x => exact x
    | y => exact y
    | z => exact z
  · intro axes
    exact ⟨axes .x, axes .y, axes .z⟩

theorem CubeCoord.toInt_along_ofBlock (w : BlockPos) (axis : Axis) :
    ((ofBlock w).along axis).toInt = (w.along axis).toInt / 16 := by
  cases axis <;> exact toInt_shiftRight_four _

theorem BlockPos.along_inCube (w : BlockPos) (axis : Axis) :
    (w.inCube.along axis : Int) = (w.along axis).toInt % 16 := by
  cases axis <;> exact Int.toNat_of_nonneg (Int.emod_nonneg _ (by decide))

theorem CubeCoord.holds_iff {c : CubeCoord} {w : BlockPos} : c.Holds w ↔ c = ofBlock w := by
  constructor
  · rintro ⟨corner, located, near⟩
    refine eq_of_along fun axis => Int32.toInt_inj.1 ?_
    have start := minBlock_eq_ok_iff_along.1 located axis
    obtain ⟨lower, upper⟩ := near axis
    rw [toInt_along_ofBlock]
    omega
  · rintro rfl
    obtain ⟨corner, located, _⟩ := w.relativeTo_minBlock
    refine ⟨corner, located, fun axis => ?_⟩
    have start := minBlock_eq_ok_iff_along.1 located axis
    rw [toInt_along_ofBlock] at start
    omega

/-! ## Filing a write -/

namespace OpBucket

theorem record_eq_write (b : OpBucket) (w : BlockPos) (block : Block) :
    b.record w.inCube block = .ok (!b.isTaken w.inCube, b.write w block) := by
  rw [record, if_pos w.inCube_inside, write]
  cases b.isTaken w.inCube <;> rfl

theorem exists_op_write {b : OpBucket} {w : BlockPos} (free : b.isTaken w.inCube = false)
    (block : Block) : ∃ op : VoxelOp, op.pos = w.inCube ∧ op.block = block ∧
      (b.write w block).ops = b.ops.push op :=
  ⟨_, pos_pushed w.inCube_inside block, rfl, by simp [write, free, push_ops]⟩

theorem Sound.mem_places_write {b : OpBucket} (sound : b.Sound) (w : BlockPos) (block : Block) :
    w.inCube ∈ (b.write w block).places := by
  unfold write
  split
  case isTrue taken => exact (sound.marks w.inCube w.inCube_inside).1 taken
  case isFalse =>
    rw [places_push w.inCube_inside]
    exact Set.mem_insert w.inCube b.places

end OpBucket

namespace FeatureNode

variable {σ : Type}

/-- A write to `w` was answered by `first`: it was recorded in the bucket of its cube, at its place
there, and no other bucket has changed. -/
structure Filed (node : FeatureNode σ) (w : BlockPos) (block : Block) (first : Bool)
    (next : FeatureNode σ) : Prop where
  here : ∃ bucket, next.bucket? (.ofBlock w) = some bucket ∧
    (node.serving (.ofBlock w)).record w.inCube block = .ok (first, bucket) ∧
    (first → ∃ op : VoxelOp, op.pos = w.inCube ∧ op.block = block ∧
      bucket.ops = (node.serving (.ofBlock w)).ops.push op) ∧
    ((node.serving (.ofBlock w)).Recorded → w.inCube ∈ bucket.places)
  elsewhere : ∀ c, c ≠ .ofBlock w → next.bucket? c = node.bucket? c

theorem exists_filed (node : FeatureNode σ) (w : BlockPos) (block : Block) :
    ∃ first next, node.record w block = .ok (first, next) ∧ node.Filed w block first next := by
  obtain ⟨next, done, receives⟩ := node.record_spec w block
  refine ⟨_, next, done, ⟨_, receives.here, OpBucket.record_eq_write _ w block, ?_, ?_⟩, ?_⟩
  · intro free
    rw [Bool.not_eq_true'] at free
    exact OpBucket.exists_op_write free block
  · intro recorded
    exact recorded.sound.mem_places_write w block
  · intro c other
    exact receives.elsewhere c (Ne.symm other)

end FeatureNode

/-! ## Blocks by their world positions -/

def lastSet (sets : List (LocalPos × Block)) (p : LocalPos) (old : Block) : Block :=
  ((sets.findRev? fun s => s.1 == p).map Prod.snd).getD old

theorem lastSet_concat (sets : List (LocalPos × Block)) (s : LocalPos × Block) (p : LocalPos)
    (old : Block) :
    lastSet (sets ++ [s]) p old = if p = s.1 then s.2 else lastSet sets p old := by
  simp only [lastSet, List.findRev?_eq_find?_reverse, List.reverse_append, List.reverse_singleton,
    List.singleton_append, List.find?_cons]
  by_cases here : p = s.1
  · simp [here]
  · have apart : (s.1 == p) = false := beq_eq_false_iff_ne.2 (Ne.symm here)
    simp [here, apart]

namespace Cube

variable {c : Cube}

theorem getWorld_eq (wf : c.WellFormed) (w : BlockPos) : c.getWorld w =
    .ok (if c.coord = .ofBlock w then some (c.blockAt w.inCube) else none) := by
  rw [getWorld, containsWorld]
  by_cases here : CubeCoord.ofBlock w = c.coord
  · obtain ⟨corner, located, place⟩ := w.relativeTo_minBlock
    rw [here] at located
    simp only [here, beq_self_eq_true, if_true, located, ok_bind, place,
      get_eq_blockAt wf w.inCube_inside, pure_eq]
  · simp [here, Ne.symm here]

theorem exists_sets (wf : c.WellFormed) {sets : List (LocalPos × Block)}
    (inside : ∀ s ∈ sets, s.1.Inside) :
    ∃ after, sets.foldlM (fun c s => c.set s.1 s.2) c = .ok after ∧ after.WellFormed ∧
      after.coord = c.coord ∧
      ∀ p : LocalPos, p.Inside → after.blockAt p = lastSet sets p (c.blockAt p) := by
  induction sets using List.reverseRecOn with
  | nil => exact ⟨c, rfl, wf, rfl, fun _ _ => rfl⟩
  | append_singleton sets s ih =>
    rw [List.forall_mem_append] at inside
    obtain ⟨before, run, beforeWf, coord, blocks⟩ := ih inside.1
    obtain ⟨after, done, afterWf, afterCoord, changed⟩ :=
      set_spec beforeWf (inside.2 s (List.mem_singleton_self s)) s.2
    refine ⟨after, ?_, afterWf, afterCoord.trans coord, ?_⟩
    · rw [List.foldlM_append, run, ok_bind, List.foldlM_cons, done]
      rfl
    · intro p pInside
      rw [changed p pInside, lastSet_concat, blocks p pInside]

/-- Asked for `w`, the cube answers nothing if it does not hold `w`, and else the block last set at
its place, `old` if none was; no write to another place is seen there. -/
structure Keeps (c : Cube) (w : BlockPos) (old : Block) : Prop where
  sets : ∀ sets : List (LocalPos × Block), (∀ s ∈ sets, s.1.Inside) →
    ∃ after, sets.foldlM (fun c s => c.set s.1 s.2) c = .ok after ∧
      after.getWorld w =
        .ok (if c.coord = .ofBlock w then some (lastSet sets w.inCube old) else none)
  elsewhere : ∀ (p : LocalPos) (b : Block), p.Inside → p ≠ w.inCube →
    ∃ after, c.set p b = .ok after ∧ after.getWorld w = c.getWorld w

theorem keeps_blockAt (wf : c.WellFormed) (w : BlockPos) : c.Keeps w (c.blockAt w.inCube) := by
  constructor
  · intro sets inside
    obtain ⟨after, run, afterWf, coord, blocks⟩ := exists_sets wf inside
    refine ⟨after, run, ?_⟩
    rw [getWorld_eq afterWf, coord, blocks _ w.inCube_inside]
  · intro p b inside apart
    obtain ⟨after, done, afterWf, coord, blocks⟩ := set_spec wf inside b
    refine ⟨after, done, ?_⟩
    rw [getWorld_eq afterWf, getWorld_eq wf, coord, blocks _ w.inCube_inside, if_neg apart.symm]

end Cube

/-- A block of the world is in one cube only, at its distance from the lowest corner. A feature
files a write to it under this cube and at this place, and any cube of blocks that was ever written
answers for it by this place, or not at all if it is another cube. -/
theorem BlockPos.places_agree (w : BlockPos) :
    (∀ c : CubeCoord, c.Holds w ↔ c = .ofBlock w) ∧
    (∃ corner, (CubeCoord.ofBlock w).minBlock = .ok corner ∧
      (∀ axis, (w.inCube.along axis : Int) = (w.along axis).toInt - (corner.along axis).toInt) ∧
      w.relativeTo corner = .ok w.inCube ∧ corner.atLocal w.inCube = .ok w) ∧
    (∀ (σ : Type) (node : FeatureNode σ) (block : Block), ∃ first next,
      node.record w block = .ok (first, next) ∧ node.Filed w block first next) ∧
    ∀ history : List DraftCall, (∀ made ∈ history, made.Within) →
      ∃ drafts, Draft.after history = .ok drafts ∧
        ∀ d ∈ drafts, d.cube.Keeps w (d.flat.getD w.inCube.index .air) := by
  refine ⟨fun c => CubeCoord.holds_iff, ?_, fun σ node block => node.exists_filed w block, ?_⟩
  · obtain ⟨corner, located, place⟩ := w.relativeTo_minBlock
    have back := w.atLocal_inCube
    rw [located, ok_bind] at back
    refine ⟨corner, located, fun axis => ?_, place, back⟩
    have start := CubeCoord.minBlock_eq_ok_iff_along.1 located axis
    rw [CubeCoord.toInt_along_ofBlock] at start
    rw [w.along_inCube, start]
    omega
  · intro history within
    obtain ⟨drafts, run, faithful⟩ := Draft.exists_after within
    refine ⟨drafts, run, fun d member => ?_⟩
    have kept := faithful d member
    rw [← kept.flat]
    exact Cube.keeps_blockAt kept.wellFormed w

def BlockPos.edge : BlockPos := ⟨-2147483648, 2147483647, -1⟩

def BlockPos.atEdge : List DraftCall :=
  [.filled ⟨-134217728, 134217727, -1⟩ .stone, .filled ⟨2147483647, 0, 0⟩ .stone]

theorem BlockPos.places_agree_at_edge :
    let near := Cube.filled ⟨-134217728, 134217727, -1⟩ .stone
    let far := Cube.filled ⟨2147483647, 0, 0⟩ .stone
    (∀ made ∈ atEdge, made.Within) ∧ near.coord.Holds edge ∧
      (∃ after, [(⟨0, 15, 15⟩, .lava), (⟨1, 15, 15⟩, .air)].foldlM
          (fun c (s : LocalPos × Block) => c.set s.1 s.2) near = .ok after ∧
        after.getWorld edge = .ok (some .lava)) ∧
      far.coord.minBlock = .error .overflow ∧ far.getWorld edge = .ok none := by
  intro near far
  have within : ∀ made ∈ atEdge, made.Within := by simp [atEdge, DraftCall.Within]
  obtain ⟨holds, _, _, kept⟩ := places_agree edge
  obtain ⟨drafts, run, keeps⟩ := kept atEdge within
  have made : Draft.after atEdge =
      .ok [.filled near.coord .stone, .filled far.coord .stone] := rfl
  obtain rfl := Except.ok.inj (run.symm.trans made)
  obtain ⟨after, done, lava⟩ := (keeps (.filled near.coord .stone) (by simp)).sets
    [(⟨0, 15, 15⟩, .lava), (⟨1, 15, 15⟩, .air)] (by decide)
  obtain ⟨same, unset, nothing⟩ :=
    (keeps (.filled far.coord .stone) (by simp)).sets [] (by simp)
  cases unset
  exact ⟨within, (holds near.coord).2 (by decide), ⟨after, done, lava⟩, by decide, nothing⟩

end Karst
