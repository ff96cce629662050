import Karst.Proofs.Feature.Bucket

namespace Karst

def firsts : List (BlockPos × Block) → List (BlockPos × Block)
  | [] => []
  | w :: sets => w :: (firsts sets).filter fun later => later.1 ≠ w.1

def firstsIn (sets : List (BlockPos × Block)) (cube : CubeCoord) : List (LocalPos × Block) :=
  ((firsts sets).filter fun w => CubeCoord.ofBlock w.1 = cube).map fun w => (w.1.inCube, w.2)

variable {sets : List (BlockPos × Block)} {cube : CubeCoord} {w : BlockPos × Block}

theorem firsts_sublist (sets : List (BlockPos × Block)) : (firsts sets).Sublist sets := by
  induction sets with
  | nil => exact List.Sublist.slnil
  | cons w sets ih => exact (List.filter_sublist.trans ih).cons_cons w

theorem firsts_concat (sets : List (BlockPos × Block)) (w : BlockPos × Block) :
    firsts (sets ++ [w]) =
      if w.1 ∈ sets.map Prod.fst then firsts sets else firsts sets ++ [w] := by
  induction sets with
  | nil => rfl
  | cons v sets ih =>
    rw [List.cons_append, firsts, ih, firsts]
    simp only [List.map_cons, List.mem_cons]
    by_cases older : w.1 ∈ sets.map Prod.fst
    · simp only [older, or_true, if_true]
    · simp only [older, if_false]
      by_cases same : w.1 = v.1 <;> simp [same]

theorem mem_map_firsts (sets : List (BlockPos × Block)) (p : BlockPos) :
    p ∈ (firsts sets).map Prod.fst ↔ p ∈ sets.map Prod.fst := by
  induction sets using List.reverseRecOn with
  | nil => rfl
  | append_singleton sets w ih =>
    rw [firsts_concat]
    split
    case isTrue older =>
      rw [ih, List.map_append, List.mem_append, List.map_singleton, List.mem_singleton]
      constructor
      · exact .inl
      · rintro (early | rfl)
        · exact early
        · exact older
    case isFalse => simp only [List.map_append, List.mem_append, ih]

theorem mem_map_firstsIn (sets : List (BlockPos × Block)) (p : BlockPos) :
    p.inCube ∈ (firstsIn sets (CubeCoord.ofBlock p)).map Prod.fst ↔ p ∈ sets.map Prod.fst := by
  rw [← mem_map_firsts]
  simp only [firstsIn, List.mem_map, List.mem_filter, decide_eq_true_eq]
  constructor
  · rintro ⟨_, ⟨w, ⟨member, cube⟩, rfl⟩, inCube⟩
    exact ⟨w, member, BlockPos.eq_of_inCube cube inCube⟩
  · rintro ⟨w, member, rfl⟩
    exact ⟨_, ⟨w, ⟨member, rfl⟩, rfl⟩, rfl⟩

theorem firstsIn_concat (sets : List (BlockPos × Block)) (w : BlockPos × Block) (cube : CubeCoord) :
    firstsIn (sets ++ [w]) cube = if CubeCoord.ofBlock w.1 = cube ∧ w.1 ∉ sets.map Prod.fst
      then firstsIn sets cube ++ [(w.1.inCube, w.2)] else firstsIn sets cube := by
  rw [firstsIn, firsts_concat]
  by_cases older : w.1 ∈ sets.map Prod.fst
  · rw [if_pos older, if_neg (fun new => new.2 older), firstsIn]
  · by_cases here : CubeCoord.ofBlock w.1 = cube <;> simp [older, here, firstsIn]

theorem LocalPos.Inside.word_lt {p : LocalPos} (inside : p.Inside) :
    p.index / OpBucket.wordBits < OpBucket.wordCount := by
  have below := inside.index_lt
  simp only [cubeVolume, OpBucket.wordBits, OpBucket.wordCount] at *
  omega

namespace OpBucket

/-- The bucket holds the writes `filed`, all to places of their own, and marks these places. -/
structure Files (b : OpBucket) (filed : List (LocalPos × Block)) : Prop where
  size : b.words.size = wordCount
  ops : b.ops.toList.map (fun op => (op.pos, op.block)) = filed
  marks : ∀ p : LocalPos, p.Inside → (b.isTaken p ↔ p ∈ filed.map Prod.fst)

theorem files_empty : empty.Files [] := by
  constructor
  · simp [empty]
  · rfl
  · simp

theorem toNat_mask (p : LocalPos) : (mask p).toNat = 2 ^ (p.index % wordBits) := by
  have bit : p.index % wordBits < 64 := Nat.mod_lt _ (by decide)
  have small : 2 ^ (p.index % wordBits) < 2 ^ 64 := Nat.pow_lt_pow_right (by decide) bit
  have amount : (UInt64.ofNat (p.index % wordBits)).toNat = p.index % wordBits :=
    UInt64.toNat_ofNat_of_lt (bit.trans (by decide))
  rw [mask, UInt64.toNat_shiftLeft, amount, Nat.mod_eq_of_lt bit, UInt64.toNat_one,
    Nat.one_shiftLeft, Nat.mod_eq_of_lt small]

theorem isTaken_eq_testBit (b : OpBucket) (p : LocalPos) : b.isTaken p =
    (b.words.getD (p.index / wordBits) 0).toNat.testBit (p.index % wordBits) := by
  rw [isTaken]
  generalize b.words.getD (p.index / wordBits) 0 = word
  rw [Bool.eq_iff_iff, bne_iff_ne, ne_eq, ← UInt64.toNat_inj, UInt64.toNat_and, toNat_mask,
    Nat.and_two_pow]
  cases word.toNat.testBit (p.index % wordBits) <;> simp

theorem isTaken_push {b : OpBucket} {p q : LocalPos} (size : b.words.size = wordCount)
    (pInside : p.Inside) (qInside : q.Inside) (block : Block) :
    (b.push p block).isTaken q ↔ q = p ∨ b.isTaken q := by
  obtain ⟨words, ops, lower, upper⟩ := b
  have bound : q.index / wordBits < words.size := by
    rw [size]
    exact qInside.word_lt
  simp only [push, isTaken_eq_testBit, Array.getD_eq_getD_getElem?, Array.getElem?_modify]
  rw [Array.getElem?_eq_getElem bound]
  by_cases word : p.index / wordBits = q.index / wordBits
  · have place : p.index % wordBits = q.index % wordBits ↔ q = p := by
      constructor
      · intro bit
        apply (pInside.index_inj qInside _).symm
        rw [← Nat.div_add_mod p.index wordBits, word, bit, Nat.div_add_mod]
      · rintro rfl
        rfl
    simp only [word, if_true, Option.map_some, Option.getD_some, UInt64.toNat_or, toNat_mask,
      Nat.testBit_or, Nat.testBit_two_pow, Bool.or_eq_true, decide_eq_true_eq, place]
    exact or_comm
  · have apart : q ≠ p := by
      rintro rfl
      exact word rfl
    simp [word, apart]

theorem Files.push {b : OpBucket} {filed : List (LocalPos × Block)} (files : b.Files filed)
    {p : LocalPos} (inside : p.Inside) (block : Block) :
    (b.push p block).Files (filed ++ [(p, block)]) := by
  constructor
  · simp [OpBucket.push, files.size]
  · simp [push_ops, files.ops, pos_pushed inside]
  · intro q qInside
    rw [isTaken_push files.size inside qInside, files.marks q qInside]
    simp [or_comm]

end OpBucket

theorem bucketOf_files (sets : List (BlockPos × Block)) (cube : CubeCoord) :
    match bucketOf sets cube with
    | some bucket => firstsIn sets cube ≠ [] ∧ bucket.Files (firstsIn sets cube)
    | none => firstsIn sets cube = [] := by
  induction sets using List.reverseRecOn with
  | nil => rfl
  | append_singleton sets w ih =>
    have filed : ((bucketOf sets cube).getD .empty).Files (firstsIn sets cube) := by
      cases held : bucketOf sets cube with
      | none =>
        rw [held] at ih
        exact ih ▸ OpBucket.files_empty
      | some bucket =>
        rw [held] at ih
        exact ih.2
    rw [bucketOf_concat, firstsIn_concat, OpBucket.file]
    by_cases here : CubeCoord.ofBlock w.1 = cube
    · subst here
      have taken := filed.marks w.1.inCube w.1.inCube_inside
      rw [mem_map_firstsIn] at taken
      rw [if_pos rfl, OpBucket.write]
      by_cases older : w.1 ∈ sets.map Prod.fst
      · rw [if_pos (taken.2 older), if_neg (fun new => new.2 older)]
        refine ⟨?_, filed⟩
        have member := (mem_map_firstsIn sets w.1).2 older
        intro none_first
        simp [none_first] at member
      · rw [if_neg (fun marked => older (taken.1 marked)), if_pos ⟨rfl, older⟩]
        exact ⟨by simp, filed.push w.1.inCube_inside w.2⟩
    · rw [if_neg here, if_neg (fun new => here new.1)]
      exact ih

theorem isTaken_bucketOf {p : BlockPos} {bucket : OpBucket}
    (found : bucketOf sets (CubeCoord.ofBlock p) = some bucket) :
    bucket.isTaken p.inCube ↔ p ∈ sets.map Prod.fst := by
  have files := bucketOf_files sets (CubeCoord.ofBlock p)
  rw [found] at files
  rw [files.2.marks p.inCube p.inCube_inside, mem_map_firstsIn]

theorem not_mem_of_bucketOf {p : BlockPos}
    (missing : bucketOf sets (CubeCoord.ofBlock p) = none) : p ∉ sets.map Prod.fst := by
  have empty := bucketOf_files sets (CubeCoord.ofBlock p)
  rw [missing] at empty
  rw [← mem_map_firstsIn, empty]
  simp

theorem isSome_bucketOf (sets : List (BlockPos × Block)) (cube : CubeCoord) :
    (bucketOf sets cube).isSome ↔ ∃ w ∈ sets, CubeCoord.ofBlock w.1 = cube := by
  constructor
  · intro found
    by_contra away
    rw [bucketOf_eq_none fun w member same => away ⟨w, member, same⟩] at found
    cases found
  · rintro ⟨w, member, rfl⟩
    rw [Option.isSome_iff_ne_none]
    intro missing
    exact not_mem_of_bucketOf missing (List.mem_map_of_mem member)

end Karst
