import Karst.Proofs.Cube.Faces
import Karst.Proofs.Feature.Recorded
import Karst.Proofs.Feature.Replay
import Karst.Proofs.Keyed

/-!
Replaying a bucket as one update. Its writes are made one after the other, each after a look at the
block that it replaces; as no two go to one place, the cube becomes what it would be if all of them
were decided on the old blocks and made at once.
-/

namespace Karst

open Guarded

namespace CubeCoord

def Fits (c : CubeCoord) : Prop :=
  ∀ axis ∈ [c.x, c.y, c.z], -2147483648 ≤ axis.toInt * 16 ∧ axis.toInt * 16 + 15 ≤ 2147483647

def position (c : CubeCoord) (p : LocalPos) : BlockPos :=
  ⟨.ofInt (c.x.toInt * 16 + p.x), .ofInt (c.y.toInt * 16 + p.y), .ofInt (c.z.toInt * 16 + p.z)⟩

theorem atLocal_minBlock {c : CubeCoord} (fits : c.Fits) : ∃ corner, c.minBlock = .ok corner ∧
    ∀ p : LocalPos, p.Inside → corner.atLocal p = .ok (c.position p) := by
  have axis (a : Int32) (member : a ∈ [c.x, c.y, c.z]) (d : Nat) (inside : d < 16) :
      (Int32.ofInt (a.toInt * 16 + d)).toInt = a.toInt * 16 + d := by
    have bounds := fits a member
    exact Int32.toInt_ofInt_of_le (by omega) (by omega)
  have first (a : Int32) (member : a ∈ [c.x, c.y, c.z]) :
      (Int32.ofInt (a.toInt * 16 + (0 : Nat))).toInt = a.toInt * 16 :=
    (axis a member 0 (by decide)).trans (Int.add_zero _)
  have next (a : Int32) (member : a ∈ [c.x, c.y, c.z]) (d : Nat) (inside : d < 16) :
      (Int32.ofInt (a.toInt * 16 + d)).toInt =
        (Int32.ofInt (a.toInt * 16 + (0 : Nat))).toInt + (Int32.ofNat d).toInt := by
    rw [axis a member d inside, first a member, Int32.toInt_ofNat_of_lt (by omega)]
  refine ⟨c.position ⟨0, 0, 0⟩, ?_, ?_⟩
  · rw [minBlock_eq_ok_iff]
    exact ⟨first c.x (by simp), first c.y (by simp), first c.z (by simp)⟩
  · rintro p ⟨x, y, z⟩
    rw [BlockPos.atLocal, BlockPos.offset_eq_ok_iff]
    exact ⟨next c.x (by simp) p.x x, next c.y (by simp) p.y y, next c.z (by simp) p.z z⟩

end CubeCoord

namespace Cube

theorem set_spec {c : Cube} (wf : c.WellFormed) {p : LocalPos} (inside : p.Inside) (b : Block) :
    ∃ after, c.set p b = .ok after ∧ after.WellFormed ∧ after.coord = c.coord ∧
      ∀ q : LocalPos, q.Inside → after.blockAt q = if q = p then b else c.blockAt q := by
  obtain ⟨after, done, afterWf, coord, blocks⟩ := setIndex_spec wf inside.index_lt b
  refine ⟨after, done, afterWf, coord, ?_⟩
  intro q qInside
  simp only [blockAt, blocks, Array.getD_eq_getD_getElem?]
  split
  case isTrue here =>
    rw [here, Array.getElem?_setIfInBounds_self_of_lt (size_toArray wf ▸ inside.index_lt),
      Option.getD_some]
  case isFalse elsewhere =>
    have apart : p.index ≠ q.index := fun same => elsewhere (qInside.index_inj inside same.symm)
    rw [Array.getElem?_setIfInBounds_ne apart]

theorem blockAt_filled (coord : CubeCoord) (b : Block) {p : LocalPos} (inside : p.Inside) :
    (filled coord b).blockAt p = b := by
  simp [blockAt, toArray, filled, inside.index_lt]

theorem Same.of_blockAt {a b : Cube} (left : a.WellFormed) (right : b.WellFormed)
    (coord : a.coord = b.coord) (blocks : ∀ p : LocalPos, p.Inside → a.blockAt p = b.blockAt p) :
    Same a b := by
  refine ⟨left, right, coord, Array.ext ((size_toArray left).trans (size_toArray right).symm) ?_⟩
  intro i inA inB
  obtain ⟨p, inside, rfl⟩ := LocalPos.exists_index_eq (size_toArray left ▸ inA)
  have same := blocks p inside
  simpa only [blockAt, Array.getD_eq_getD_getElem?, Array.getElem?_eq_getElem inA,
    Array.getElem?_eq_getElem inB, Option.getD_some] using same

end Cube

/-- The writes of a list made at once: where one goes and is admitted over the old block stands its
block. -/
def atOnce (ops : List VoxelOp) (admits : LocalPos → Block → Bool) (old : LocalPos → Block)
    (p : LocalPos) : Block :=
  match ops.find? fun op => op.pos = p with
  | some op => if admits p (old p) then op.block else old p
  | none => old p

variable {ops : List VoxelOp} {admits : LocalPos → Block → Bool} {old : LocalPos → Block}

theorem atOnce_of_not_mem {p : LocalPos} (free : p ∉ ops.map VoxelOp.pos) :
    atOnce ops admits old p = old p := by
  have none : ops.find? (fun op => op.pos = p) = none := by
    rw [List.find?_eq_none]
    intro op member here
    exact free (List.mem_map.2 ⟨op, member, of_decide_eq_true here⟩)
  rw [atOnce, none]

theorem atOnce_eq_of_perm {others : List VoxelOp} (apart : (ops.map VoxelOp.pos).Nodup)
    (perm : others.Perm ops) (p : LocalPos) :
    atOnce others admits old p = atOnce ops admits old p := by
  have same : others.find? (fun op => op.pos = p) = ops.find? fun op => op.pos = p :=
    find?_eq_find?_of_perm apart (fun _ => decide_eq_true_iff) perm
  rw [atOnce, atOnce, same]

theorem atOnce_cons_self (op : VoxelOp) : atOnce (op :: ops) admits old op.pos =
    if admits op.pos (old op.pos) then op.block else old op.pos := by
  simp [atOnce]

theorem atOnce_cons_of_ne {op : VoxelOp} {p : LocalPos} (elsewhere : op.pos ≠ p) :
    atOnce (op :: ops) admits old p = atOnce ops admits old p := by
  simp [atOnce, elsewhere]

theorem atOnce_congr {new : LocalPos → Block} {p : LocalPos} (same : new p = old p) :
    atOnce ops admits new p = atOnce ops admits old p := by
  rw [atOnce, atOnce, same]

namespace Replayed

variable {allowed : VoxelOp → Block → Guarded Bool}

theorem offer_spec {op : VoxelOp} (decides : ∀ b, allowed op b = .ok (admits op.pos b))
    (inside : op.pos.Inside) {c : Cube} (wf : c.WellFormed) (written : Nat) :
    ∃ after, offer allowed (written, c) op =
        .ok (written + if admits op.pos (c.blockAt op.pos) then 1 else 0, after) ∧
      after.WellFormed ∧ after.coord = c.coord ∧
      ∀ p : LocalPos, p.Inside → after.blockAt p = atOnce [op] admits c.blockAt p := by
  rw [offer, Cube.get_eq_blockAt wf inside, ok_bind, decides, ok_bind]
  cases admitted : admits op.pos (c.blockAt op.pos) with
  | true =>
    obtain ⟨after, done, afterWf, coord, blocks⟩ := Cube.set_spec wf inside op.block
    rw [if_pos rfl, done]
    refine ⟨after, rfl, afterWf, coord, ?_⟩
    intro p pInside
    rw [blocks p pInside]
    split
    case isTrue here => rw [here, atOnce_cons_self, admitted, if_pos rfl]
    case isFalse elsewhere => rw [atOnce_cons_of_ne (Ne.symm elsewhere)]; rfl
  | false =>
    refine ⟨c, rfl, wf, rfl, ?_⟩
    intro p _
    by_cases here : op.pos = p
    · subst here
      rw [atOnce_cons_self, admitted]
      rfl
    · rw [atOnce_cons_of_ne here]
      rfl

/-- One write after the other leaves what all at once would, and counts those that are admitted. -/
theorem foldlM_offer (decides : ∀ op ∈ ops, ∀ b, allowed op b = .ok (admits op.pos b))
    (inside : ∀ op ∈ ops, op.pos.Inside) (apart : (ops.map VoxelOp.pos).Nodup) {c : Cube}
    (wf : c.WellFormed) (written : Nat) :
    ∃ after, ops.foldlM (offer allowed) (written, c) =
        .ok (written + ops.countP fun op => admits op.pos (c.blockAt op.pos), after) ∧
      after.WellFormed ∧ after.coord = c.coord ∧
      ∀ p : LocalPos, p.Inside → after.blockAt p = atOnce ops admits c.blockAt p := by
  induction ops generalizing c written with
  | nil => exact ⟨c, rfl, wf, rfl, fun _ _ => rfl⟩
  | cons op ops ih =>
    rw [List.map_cons, List.nodup_cons] at apart
    obtain ⟨free, apart⟩ := apart
    obtain ⟨next, first, nextWf, nextCoord, nextBlocks⟩ :=
      offer_spec (decides op List.mem_cons_self) (inside op List.mem_cons_self) wf written
    obtain ⟨after, rest, afterWf, afterCoord, afterBlocks⟩ :=
      ih (fun other member => decides other (List.mem_cons_of_mem _ member))
        (fun other member => inside other (List.mem_cons_of_mem _ member)) apart nextWf _
    -- what the later writes see is what was there at first
    have unseen (p : LocalPos) (pInside : p.Inside) (elsewhere : op.pos ≠ p) :
        next.blockAt p = c.blockAt p := by
      rw [nextBlocks p pInside, atOnce_cons_of_ne elsewhere]
      rfl
    have counted : ops.countP (fun other => admits other.pos (next.blockAt other.pos)) =
        ops.countP fun other => admits other.pos (c.blockAt other.pos) := by
      refine List.countP_congr fun other member => ?_
      rw [unseen _ (inside other (List.mem_cons_of_mem _ member))]
      rintro same
      exact free (same ▸ List.mem_map_of_mem member)
    refine ⟨after, ?_, afterWf, afterCoord.trans nextCoord, ?_⟩
    · rw [List.foldlM_cons, first, ok_bind, rest, counted, List.countP_cons]
      congr 2
      omega
    · intro p pInside
      rw [afterBlocks p pInside]
      by_cases here : op.pos = p
      · subst here
        rw [atOnce_of_not_mem free, nextBlocks _ pInside, atOnce_cons_self, atOnce_cons_self]
      · rw [atOnce_cons_of_ne here, atOnce_congr (unseen p pInside here)]

/-- The replay made the admitted writes of the bucket at once: these are its places where the write
is admitted over the block of `c`. -/
structure AtOnce (bucket : OpBucket) (admits : LocalPos → Block → Bool) (c : Cube) (s : Stream)
    (r : Replayed) : Prop where
  wellFormed : r.cube.WellFormed
  coord : r.cube.coord = c.coord
  stream : r.stream = s
  blocks : ∀ p : LocalPos, p.Inside →
    r.cube.blockAt p = atOnce bucket.ops.toList admits c.blockAt p
  written : r.written = {p | p ∈ bucket.places ∧ admits p (c.blockAt p)}.ncard

variable {bucket : OpBucket} {c : Cube} {s : Stream}

theorem guarded_atOnce (s : Stream) (sound : bucket.Sound) (wf : c.WellFormed)
    (decides : ∀ op ∈ bucket.ops, ∀ b, allowed op b = .ok (admits op.pos b)) :
    ∃ r, guarded bucket c s allowed = .ok r ∧ r.AtOnce bucket admits c s := by
  obtain ⟨after, run, afterWf, coord, blocks⟩ := foldlM_offer
    (fun op member => decides op (Array.mem_toList_iff.1 member))
    (fun op member => sound.inside op (Array.mem_toList_iff.1 member)) sound.apart wf 0
  rw [guarded_eq, run, ok_bind]
  refine ⟨_, rfl, afterWf, coord, rfl, blocks, ?_⟩
  have places (p : LocalPos) : p ∈ bucket.ops.toList.map VoxelOp.pos ↔ p ∈ bucket.places := by
    simp [OpBucket.places]
  have counted := countP_eq_ncard sound.apart fun p => admits p (c.blockAt p)
  rw [List.countP_map] at counted
  simp only [places] at counted
  rw [Nat.zero_add, ← counted]
  rfl

theorem places_eq_of_perm {other : OpBucket} (perm : other.ops.toList.Perm bucket.ops.toList) :
    other.places = bucket.places := by
  ext p
  simp only [OpBucket.places, ← Array.mem_toList_iff, perm.mem_iff]

theorem AtOnce.same {other : OpBucket} (sound : bucket.Sound)
    (perm : other.ops.toList.Perm bucket.ops.toList) {r t : Replayed}
    (made : r.AtOnce bucket admits c s) (permuted : t.AtOnce other admits c s) : Same t r := by
  refine ⟨?_, ?_, permuted.stream.trans made.stream.symm⟩
  · rw [permuted.written, made.written, places_eq_of_perm perm]
  · refine .of_blockAt permuted.wellFormed made.wellFormed
      (permuted.coord.trans made.coord.symm) ?_
    intro p inside
    rw [permuted.blocks p inside, made.blocks p inside, atOnce_eq_of_perm sound.apart perm]

end Replayed

namespace CaveSeed

/-- More still water around the writes of the bucket than the threshold allows. -/
def Drowned (p : CaveParams) (bucket : OpBucket) (c : Cube) : Prop :=
  ∃ lower upper, Spans bucket.places lower upper ∧ p.waterThreshold < c.stillWater lower upper

def carves (p : CaveParams) (biomes : BiomeSource) (cube : CubeCoord) (place : LocalPos)
    (b : Block) : Bool := canCarve b (biomes (cube.position place)) p.carvable

variable {bucket : OpBucket} {c : Cube}

theorem replay_spec (p : CaveParams) (biomes : BiomeSource) (s : Stream) (sound : bucket.Sound)
    (wf : c.WellFormed) (fits : c.coord.Fits) :
    ∃ r, replay p bucket c biomes s = .ok r ∧
      (Drowned p bucket c → r = ⟨0, c, s⟩) ∧
      (¬ Drowned p bucket c → r.AtOnce bucket (carves p biomes c.coord) c s) := by
  rcases sound.localBounds_eq with ⟨unbounded, vacant⟩ | ⟨lower, upper, bounded, spans⟩
  · rw [replay, unbounded]
    refine ⟨_, rfl, fun _ => rfl, fun _ => ⟨wf, rfl, rfl, ?_, ?_⟩⟩
    · intro q _
      simp [vacant, atOnce]
    · simp [OpBucket.places_of_vacant vacant]
  · have limit : p.waterThreshold < min (p.waterThreshold + 1) (c.waterAround lower upper) ↔
        Drowned p bucket c := by
      rw [c.waterAround_eq]
      constructor
      · intro exceeded
        exact ⟨lower, upper, spans, by omega⟩
      · rintro ⟨first, last, others, exceeded⟩
        obtain ⟨rfl, rfl⟩ := spans.unique others
        omega
    simp only [replay, bounded, Cube.perimeterWater_eq wf, ok_bind]
    by_cases drowned : Drowned p bucket c
    · rw [if_pos (limit.2 drowned)]
      exact ⟨_, rfl, fun _ => rfl, fun dry => absurd drowned dry⟩
    · rw [if_neg fun exceeded => drowned (limit.1 exceeded)]
      obtain ⟨corner, lowest, placed⟩ := CubeCoord.atLocal_minBlock fits
      rw [lowest, ok_bind]
      have decides (op : VoxelOp) (member : op ∈ bucket.ops) (b : Block) :
          (do return canCarve b (biomes (← corner.atLocal op.pos)) p.carvable : Guarded Bool) =
            .ok (carves p biomes c.coord op.pos b) := by
        rw [placed op.pos (sound.inside op member)]
        rfl
      obtain ⟨r, run, made⟩ := Replayed.guarded_atOnce s sound wf decides
      exact ⟨r, run, fun wet => absurd wet drowned, fun _ => made⟩

end CaveSeed

/-- Replaying writes everything at once. A cave is left out as a whole if more still water than the
threshold allows stands around it, and is else carved where the old block may be carved; a pocket is
filled into the old stone. The order in which the writes were recorded does not matter. -/
theorem replay_at_once (range : Int32) (caves : CaveParams) (pockets : PocketParams) (world : World)
    (biomes : BiomeSource) (s : Stream) {c : Cube} (wf : c.WellFormed) (fits : c.coord.Fits)
    {bucket : OpBucket} (recorded : bucket.Recorded) :
    (∃ r, (caveGenerator range caves).replay world bucket c biomes s = .ok r ∧
      (CaveSeed.Drowned caves bucket c → r = ⟨0, c, s⟩) ∧
      (¬ CaveSeed.Drowned caves bucket c →
        r.AtOnce bucket (CaveSeed.carves caves biomes c.coord) c s)) ∧
    (∃ r, (pocketGenerator pockets).replay world bucket c biomes s = .ok r ∧
      r.AtOnce bucket (fun _ b => b.id == Block.stone.id) c s) ∧
    ∀ other : OpBucket, other.Recorded → other.ops.toList.Perm bucket.ops.toList →
      Alike Replayed.Same ((caveGenerator range caves).replay world other c biomes s)
        ((caveGenerator range caves).replay world bucket c biomes s) ∧
      Alike Replayed.Same ((pocketGenerator pockets).replay world other c biomes s)
        ((pocketGenerator pockets).replay world bucket c biomes s) := by
  have carved {b : OpBucket} (recorded : b.Recorded) :=
    CaveSeed.replay_spec caves biomes s recorded.sound wf fits
  have filled {b : OpBucket} (recorded : b.Recorded) :
      ∃ r, (pocketGenerator pockets).replay world b c biomes s = .ok r ∧
        r.AtOnce b (fun _ old => old.id == Block.stone.id) c s :=
    Replayed.guarded_atOnce s recorded.sound wf fun _ _ _ => rfl
  refine ⟨carved recorded, filled recorded, ?_⟩
  intro other alsoRecorded perm
  constructor
  · obtain ⟨r, run, wet, dry⟩ := carved recorded
    obtain ⟨t, otherRun, otherWet, otherDry⟩ := carved alsoRecorded
    have same : CaveSeed.Drowned caves other c ↔ CaveSeed.Drowned caves bucket c := by
      rw [CaveSeed.Drowned, CaveSeed.Drowned, Replayed.places_eq_of_perm perm]
    simp only [caveGenerator, run, otherRun]
    by_cases drowned : CaveSeed.Drowned caves bucket c
    · rw [wet drowned, otherWet (same.2 drowned)]
      exact .ok ⟨rfl, ⟨wf, wf, rfl, rfl⟩, rfl⟩
    · exact .ok ((dry drowned).same recorded.sound perm (otherDry fun wet => drowned (same.1 wet)))
  · obtain ⟨r, run, made⟩ := filled recorded
    obtain ⟨t, otherRun, permuted⟩ := filled alsoRecorded
    rw [run, otherRun]
    exact .ok (made.same recorded.sound perm permuted)

def seep : OpBucket :=
  ((OpBucket.empty.push ⟨1, 2, 3⟩ .air).push ⟨2, 2, 3⟩ .air).push ⟨1, 3, 3⟩ .lava

def seepReversed : OpBucket :=
  ((OpBucket.empty.push ⟨1, 3, 3⟩ .lava).push ⟨2, 2, 3⟩ .air).push ⟨1, 2, 3⟩ .air

theorem recorded_seep : seep.Recorded ∧ seepReversed.Recorded := by
  have first (p : LocalPos) (inside : p.Inside) (block : Block) :
      (OpBucket.empty.push p block).Recorded :=
    .record .empty (OpBucket.record_of_free inside (OpBucket.not_isTaken_empty p) block)
  constructor
  · refine .record (.record (first ⟨1, 2, 3⟩ (by decide) .air)
      (OpBucket.record_of_free ?_ ?_ .air)) (OpBucket.record_of_free ?_ ?_ .lava)
    all_goals decide +kernel
  · refine .record (.record (first ⟨1, 3, 3⟩ (by decide) .lava)
      (OpBucket.record_of_free ?_ ?_ .air)) (OpBucket.record_of_free ?_ ?_ .air)
    all_goals decide +kernel

def pondAt (i : Nat) : Block :=
  if i / 256 = 4 then .water else if i = (⟨2, 2, 3⟩ : LocalPos).index then .sand else .stone

/-- Stone with a level of still water in it, and one block of sand below. -/
def pond : Cube := ⟨⟨0, 0, 0⟩, .dense (Array.ofFn fun i : Fin cubeVolume => pondAt i)⟩

theorem wellFormed_pond : pond.WellFormed := Array.size_ofFn

theorem blockAt_pond {p : LocalPos} (inside : p.Inside) : pond.blockAt p = pondAt p.index := by
  simp [Cube.blockAt, Cube.toArray, pond, inside.index_lt]

theorem stillWater_pond : pond.stillWater ⟨1, 2, 3⟩ ⟨2, 3, 3⟩ = 12 := by
  have counted : (boxPerimeter ⟨0, 1, 2⟩ ⟨3, 4, 4⟩).countP
      (fun p => (pondAt p.index).isStillWater) = 12 := by decide +kernel
  rw [← Cube.waterAround_eq, ← counted]
  refine List.countP_congr fun p member => ?_
  rw [blockAt_pond (inside_of_mem_boxPerimeter (by decide) member)]

theorem spans_seep : Spans seep.places ⟨1, 2, 3⟩ ⟨2, 3, 3⟩ := by
  have bounds : seep.localBounds = some (⟨1, 2, 3⟩, ⟨2, 3, 3⟩) := by decide +kernel
  rcases recorded_seep.1.sound.localBounds_eq with ⟨none, _⟩ | ⟨lower, upper, bounded, spans⟩
  · rw [bounds] at none
    cases none
  · rw [bounds] at bounded
    cases bounded
    exact spans

theorem drowned_seep_iff (threshold : Nat) :
    CaveSeed.Drowned { waterThreshold := threshold } seep pond ↔ threshold < 12 := by
  constructor
  · rintro ⟨lower, upper, spans, more⟩
    obtain ⟨rfl, rfl⟩ := spans_seep.unique spans
    rwa [stillWater_pond] at more
  · intro less
    exact ⟨_, _, spans_seep, by rwa [stillWater_pond]⟩

theorem Replayed.AtOnce.in_pond {admits : LocalPos → Block → Bool} {s : Stream} {r : Replayed}
    (made : r.AtOnce seep admits pond s) (stone : ∀ p, admits p .stone)
    (sand : ∀ p, admits p .sand = false) :
    r.written = 2 ∧ r.cube.blockAt ⟨1, 2, 3⟩ = .air ∧ r.cube.blockAt ⟨2, 2, 3⟩ = .sand ∧
      r.cube.blockAt ⟨1, 3, 3⟩ = .lava ∧ r.cube.blockAt ⟨0, 0, 0⟩ = .stone := by
  have places : seep.places = {⟨1, 2, 3⟩, ⟨2, 2, 3⟩, ⟨1, 3, 3⟩} := by
    ext p
    simp [seep, OpBucket.places, OpBucket.empty, OpBucket.push, VoxelOp.pos, eq_comm]
  have old (p : LocalPos) (inside : p.Inside) : pond.blockAt p = pondAt p.index :=
    blockAt_pond inside
  have first : pond.blockAt ⟨1, 2, 3⟩ = .stone := (old _ (by decide)).trans (by decide)
  have second : pond.blockAt ⟨2, 2, 3⟩ = .sand := (old _ (by decide)).trans (by decide)
  have third : pond.blockAt ⟨1, 3, 3⟩ = .stone := (old _ (by decide)).trans (by decide)
  have corner : pond.blockAt ⟨0, 0, 0⟩ = .stone := (old _ (by decide)).trans (by decide)
  have writes : seep.ops.toList = [⟨1, 2, 3, .air⟩, ⟨2, 2, 3, .air⟩, ⟨1, 3, 3, .lava⟩] := rfl
  refine ⟨?_, ?_, ?_, ?_, ?_⟩
  · have admitted : {p | p ∈ seep.places ∧ admits p (pond.blockAt p)} =
        {⟨1, 2, 3⟩, ⟨1, 3, 3⟩} := by
      ext p
      simp only [places, Set.mem_ofPred_eq, Set.mem_insert_iff, Set.mem_singleton_iff]
      constructor
      · rintro ⟨rfl | rfl | rfl, here⟩
        · exact .inl rfl
        · simp [second, sand] at here
        · exact .inr rfl
      · rintro (rfl | rfl)
        · exact ⟨.inl rfl, by rw [first]; exact stone _⟩
        · exact ⟨.inr (.inr rfl), by rw [third]; exact stone _⟩
    rw [made.written, admitted, Set.ncard_pair (by decide)]
  · rw [made.blocks _ (by decide), writes]
    simp [atOnce, VoxelOp.pos, first, stone]
  · rw [made.blocks _ (by decide), writes]
    simp [atOnce, VoxelOp.pos, second, sand]
  · rw [made.blocks _ (by decide), writes]
    simp [atOnce, VoxelOp.pos, third, stone]
  · rw [made.blocks _ (by decide), writes]
    simp [atOnce, VoxelOp.pos, corner]

theorem replay_seep_at_once :
    let deep : CaveParams := { waterThreshold := 11 }
    let shallow : CaveParams := { waterThreshold := 12 }
    let biomes : BiomeSource := fun _ => .plains
    ∃ cave again pool : Replayed,
      (caveGenerator 8 deep).replay default seep pond biomes default = .ok ⟨0, pond, default⟩ ∧
      (caveGenerator 8 shallow).replay default seep pond biomes default = .ok cave ∧
      (cave.written = 2 ∧ cave.cube.blockAt ⟨1, 2, 3⟩ = .air ∧
        cave.cube.blockAt ⟨2, 2, 3⟩ = .sand ∧ cave.cube.blockAt ⟨1, 3, 3⟩ = .lava ∧
        cave.cube.blockAt ⟨0, 0, 0⟩ = .stone) ∧
      (caveGenerator 8 shallow).replay default seepReversed pond biomes default = .ok again ∧
      again.Same cave ∧
      (pocketGenerator {}).replay default seep pond biomes default = .ok pool ∧
      (pool.written = 2 ∧ pool.cube.blockAt ⟨1, 2, 3⟩ = .air ∧
        pool.cube.blockAt ⟨2, 2, 3⟩ = .sand ∧ pool.cube.blockAt ⟨1, 3, 3⟩ = .lava ∧
        pool.cube.blockAt ⟨0, 0, 0⟩ = .stone) := by
  intro deep shallow biomes
  have fits : pond.coord.Fits := by simp [pond, CubeCoord.Fits]
  obtain ⟨recorded, reversed⟩ := recorded_seep
  have perm : seepReversed.ops.toList.Perm seep.ops.toList :=
    .trans (.of_eq rfl) (List.reverse_perm seep.ops.toList)
  obtain ⟨⟨left, drowned, out, _⟩, _⟩ :=
    replay_at_once 8 deep {} default biomes default wellFormed_pond fits recorded
  obtain ⟨⟨cave, carved, _, dry⟩, ⟨pool, filled, full⟩, order⟩ :=
    replay_at_once 8 shallow {} default biomes default wellFormed_pond fits recorded
  cases out ((drowned_seep_iff 11).2 (by decide))
  have made := dry (mt (drowned_seep_iff 12).1 (by decide))
  obtain ⟨again, recarved, same⟩ := (order seepReversed reversed perm).1.exists_left carved
  exact ⟨cave, again, pool, drowned, carved, made.in_pond (fun _ => rfl) (fun _ => rfl), recarved,
    same, filled, full.in_pond (fun _ => rfl) (fun _ => rfl)⟩

end Karst
