import Karst.Proofs.Feature.Firsts

namespace Karst

structure Spans (positions : Set LocalPos) (lower upper : LocalPos) : Prop where
  leastX : IsLeast (LocalPos.x '' positions) lower.x
  leastY : IsLeast (LocalPos.y '' positions) lower.y
  leastZ : IsLeast (LocalPos.z '' positions) lower.z
  greatestX : IsGreatest (LocalPos.x '' positions) upper.x
  greatestY : IsGreatest (LocalPos.y '' positions) upper.y
  greatestZ : IsGreatest (LocalPos.z '' positions) upper.z

namespace Spans

variable {positions : Set LocalPos} {lower upper first last : LocalPos}

theorem unique (spans : Spans positions lower upper) (other : Spans positions first last) :
    first = lower ∧ last = upper := by
  cases lower
  cases upper
  cases first
  cases last
  simp only [LocalPos.mk.injEq]
  exact ⟨⟨other.leastX.unique spans.leastX, other.leastY.unique spans.leastY,
    other.leastZ.unique spans.leastZ⟩, other.greatestX.unique spans.greatestX,
    other.greatestY.unique spans.greatestY, other.greatestZ.unique spans.greatestZ⟩

theorem singleton (p : LocalPos) : Spans {p} p p := by
  constructor <;> simp [Set.image_singleton]

theorem insert (spans : Spans positions lower upper) (p : LocalPos) :
    Spans (insert p positions) ⟨min p.x lower.x, min p.y lower.y, min p.z lower.z⟩
      ⟨max p.x upper.x, max p.y upper.y, max p.z upper.z⟩ := by
  constructor <;> rw [Set.image_insert_eq]
  · exact spans.leastX.insert p.x
  · exact spans.leastY.insert p.y
  · exact spans.leastZ.insert p.z
  · exact spans.greatestX.insert p.x
  · exact spans.greatestY.insert p.y
  · exact spans.greatestZ.insert p.z

theorem nonempty (spans : Spans positions lower upper) : positions.Nonempty :=
  spans.leastX.1.imp fun _ found => found.1

end Spans

namespace OpBucket

/-- A bucket after any records, in an empty bucket or in one that was used before. -/
inductive Recorded : OpBucket → Prop
  | empty : Recorded empty
  | recycle {b} (recorded : Recorded b) : Recorded b.recycle
  | record {b after p block taken} (recorded : Recorded b)
      (done : b.record p block = .ok (taken, after)) : Recorded after

def places (b : OpBucket) : Set LocalPos := {p | ∃ op ∈ b.ops, op.pos = p}

/-- The writes go to places of their own in the cube, marked in the bitmap and within the bounds. -/
structure Sound (b : OpBucket) : Prop where
  size : b.words.size = wordCount
  marks : ∀ p : LocalPos, p.Inside → (b.isTaken p ↔ p ∈ b.places)
  inside : ∀ op ∈ b.ops, op.pos.Inside
  apart : (b.ops.toList.map VoxelOp.pos).Nodup
  bounds : b.ops = #[] ∧ b.lower = ⟨255, 255, 255⟩ ∧ b.upper = ⟨0, 0, 0⟩ ∨
    Spans b.places b.lower.pos b.upper.pos

theorem places_of_vacant {b : OpBucket} (vacant : b.ops = #[]) : b.places = ∅ := by
  simp [places, vacant]

theorem sound_empty : empty.Sound := by
  refine ⟨files_empty.size, ?_, ?_, .nil, .inl ⟨rfl, rfl, rfl⟩⟩
  · intro p _
    rw [not_isTaken_empty]
    simp [places, empty]
  · simp [empty]

variable {b : OpBucket} {p : LocalPos}

theorem places_push (inside : p.Inside) (block : Block) :
    (b.push p block).places = insert p b.places := by
  ext q
  simp only [places, push_ops, Array.mem_push, Set.mem_ofPred_eq, Set.mem_insert_iff]
  constructor
  · rintro ⟨op, old | rfl, rfl⟩
    · exact .inr ⟨op, old, rfl⟩
    · exact .inl (pos_pushed inside block)
  · rintro (rfl | ⟨op, old, rfl⟩)
    · exact ⟨_, .inr rfl, pos_pushed inside block⟩
    · exact ⟨op, .inl old, rfl⟩

theorem record_of_free (inside : p.Inside) (free : b.isTaken p = false) (block : Block) :
    b.record p block = .ok (true, b.push p block) := by
  rw [record, if_pos inside, free]
  rfl

theorem lower_push (inside : p.Inside) (block : Block) : (b.push p block).lower.pos =
    ⟨min p.x b.lower.pos.x, min p.y b.lower.pos.y, min p.z b.lower.pos.z⟩ := by
  obtain ⟨x, y, z⟩ := LocalPos.mk.inj (pos_pushed inside block)
  simp only [OpBucket.push, Corner.pos, UInt8.toNat_min, x, y, z, min_comm]

theorem upper_push (inside : p.Inside) (block : Block) : (b.push p block).upper.pos =
    ⟨max p.x b.upper.pos.x, max p.y b.upper.pos.y, max p.z b.upper.pos.z⟩ := by
  obtain ⟨x, y, z⟩ := LocalPos.mk.inj (pos_pushed inside block)
  simp only [OpBucket.push, Corner.pos, UInt8.toNat_max, x, y, z, max_comm]

theorem Sound.push (sound : b.Sound) (inside : p.Inside) (free : b.isTaken p = false)
    (block : Block) : (b.push p block).Sound := by
  have missing : p ∉ b.places := fun member => by
    rw [(sound.marks p inside).2 member] at free
    cases free
  refine ⟨by simp [OpBucket.push, sound.size], ?_, ?_, ?_, .inr ?_⟩
  · intro q qInside
    rw [isTaken_push sound.size inside qInside, sound.marks q qInside, places_push inside]
    rfl
  · intro op member
    rw [push_ops, Array.mem_push] at member
    rcases member with old | rfl
    · exact sound.inside op old
    · rwa [pos_pushed inside]
  · rw [push_ops, Array.toList_push, List.map_append, List.map_singleton, pos_pushed inside]
    refine List.nodup_append'.2 ⟨sound.apart, List.nodup_singleton p, ?_⟩
    rw [List.disjoint_singleton]
    intro member
    obtain ⟨op, listed, here⟩ := List.mem_map.1 member
    exact missing ⟨op, Array.mem_toList_iff.1 listed, here⟩
  · rw [places_push inside, lower_push inside, upper_push inside]
    rcases sound.bounds with ⟨vacant, lower, upper⟩ | spans
    · have whole := places_of_vacant vacant
      obtain ⟨x, y, z⟩ := inside
      simp only [cubeSize] at x y z
      have least : LocalPos.mk (min p.x 255) (min p.y 255) (min p.z 255) = p := by
        rw [Nat.min_eq_left (by omega), Nat.min_eq_left (by omega), Nat.min_eq_left (by omega)]
      rw [whole, lower, upper, insert_empty_eq]
      simpa [Corner.pos, least] using Spans.singleton p
    · exact spans.insert p

theorem Sound.record (sound : b.Sound) {block : Block} {taken : Bool} {after : OpBucket}
    (recorded : b.record p block = .ok (taken, after)) : after.Sound := by
  unfold OpBucket.record at recorded
  split at recorded
  case isFalse => cases recorded
  case isTrue inside =>
    split at recorded
    case isTrue =>
      cases recorded
      exact sound
    case isFalse free =>
      cases recorded
      exact sound.push inside (Bool.eq_false_of_not_eq_true free) block

theorem Sound.recycle (sound : b.Sound) : b.recycle.Sound := by
  by_cases vacant : b.ops = #[]
  · have whole := places_of_vacant vacant
    have words : b.recycle = { empty with words := b.words } := by
      simp [OpBucket.recycle, vacant]
    rw [words]
    refine ⟨sound.size, ?_, sound_empty.inside, sound_empty.apart, sound_empty.bounds⟩
    intro p inside
    have marked : ({ empty with words := b.words } : OpBucket).isTaken p = b.isTaken p := rfl
    rw [marked, sound.marks p inside, whole]
    simp [places, empty]
  · rw [recycle_eq_empty vacant]
    exact sound_empty

theorem Recorded.sound (recorded : b.Recorded) : b.Sound := by
  induction recorded with
  | empty => exact sound_empty
  | recycle _ sound => exact sound.recycle
  | record _ done sound => exact sound.record done

theorem Sound.localBounds_eq (sound : b.Sound) :
    b.localBounds = none ∧ b.ops = #[] ∨
      ∃ lower upper, b.localBounds = some (lower, upper) ∧ Spans b.places lower upper := by
  rw [localBounds]
  rcases sound.bounds with ⟨vacant, _⟩ | spans
  · exact .inl ⟨by simp [vacant], vacant⟩
  · obtain ⟨_, op, member, _⟩ := spans.nonempty
    have filled : b.ops.isEmpty = false := by
      rw [Array.isEmpty_eq_false_iff]
      rintro vacant
      simp [vacant] at member
    rw [filled]
    exact .inr ⟨_, _, rfl, spans⟩

end OpBucket

end Karst
