import Karst.Proofs.Cube.Voxels
import Karst.Proofs.Fnv

namespace Karst

open Function

theorem exists_append_of_eq_except {α : Type} {l m : List α} {k : Nat}
    (length : l.length = m.length) (bound : k < l.length)
    (rest : ∀ i, i ≠ k → l[i]? = m[i]?) : ∃ before v w after,
      l = before ++ v :: after ∧ m = before ++ w :: after ∧ l[k]? = some v ∧ m[k]? = some w := by
  have bound' : k < m.length := length ▸ bound
  have early : m.take k = l.take k := by
    refine List.ext_getElem? fun i => ?_
    rw [List.getElem?_take, List.getElem?_take]
    split
    case isTrue below => exact (rest i below.ne).symm
    case isFalse => rfl
  have late : m.drop (k + 1) = l.drop (k + 1) := by
    refine List.ext_getElem? fun i => ?_
    rw [List.getElem?_drop, List.getElem?_drop]
    exact (rest (k + 1 + i) (by omega)).symm
  refine ⟨l.take k, l[k], m[k], l.drop (k + 1), ?_, ?_, List.getElem?_eq_getElem bound,
    List.getElem?_eq_getElem bound'⟩
  · rw [← List.drop_eq_getElem_cons bound, List.take_append_drop]
  · rw [← early, ← late, ← List.drop_eq_getElem_cons bound', List.take_append_drop]

namespace Fnv

def block (h : UInt64) (b : Block) : UInt64 := word16 (word16 h b.id) b.state

theorem block_left_injective (b : Block) : Injective fun h => block h b :=
  (word16_left_injective b.state).comp (word16_left_injective b.id)

theorem block_injective (h : UInt64) : Injective (block h) := by
  rintro ⟨id, state⟩ ⟨id', state'⟩ same
  exact (Block.mk.injEq ..).mpr (words_inj same)

end Fnv

namespace Cube

variable {a b : Cube}

theorem checksum_eq_foldl (c : Cube) : c.checksum = c.toArray.toList.foldl Fnv.block Fnv.start := by
  rw [Array.foldl_toList]
  rfl

def SameBlocks (a b : Cube) : Prop := ∀ p : LocalPos, p.Inside → a.get p = b.get p

def OneBlockApart (a b : Cube) : Prop :=
  ∃ p : LocalPos, p.Inside ∧ a.get p ≠ b.get p ∧
    ∀ q : LocalPos, q.Inside → q ≠ p → a.get q = b.get q

theorem get_eq_get_iff (left : a.WellFormed) (right : b.WellFormed) {p : LocalPos}
    (inside : p.Inside) : a.get p = b.get p ↔
      a.toArray.toList[p.index]? = b.toArray.toList[p.index]? := by
  have inA : p.index < a.toArray.size := size_toArray left ▸ inside.index_lt
  have inB : p.index < b.toArray.size := size_toArray right ▸ inside.index_lt
  rw [get_eq_blockAt left inside, get_eq_blockAt right inside, Except.ok.injEq, blockAt, blockAt,
    Array.getElem?_toList, Array.getElem?_toList, Array.getElem?_eq_getElem inA,
    Array.getElem?_eq_getElem inB, Option.some_inj]
  simp [inA, inB]

theorem getElem?_toList_congr (left : a.WellFormed) (right : b.WellFormed) {i : Nat}
    (same : ∀ p : LocalPos, p.Inside → p.index = i → a.get p = b.get p) :
    a.toArray.toList[i]? = b.toArray.toList[i]? := by
  by_cases bound : i < cubeVolume
  · obtain ⟨p, inside, rfl⟩ := LocalPos.exists_index_eq bound
    exact (get_eq_get_iff left right inside).1 (same p inside rfl)
  · have beyond {c : Cube} (wf : c.WellFormed) : c.toArray.toList[i]? = none := by
      rw [List.getElem?_eq_none_iff, Array.length_toList, size_toArray wf]
      omega
    rw [beyond left, beyond right]

theorem SameBlocks.checksum_eq (left : a.WellFormed) (right : b.WellFormed)
    (same : a.SameBlocks b) : a.checksum = b.checksum := by
  have blocks : a.toArray.toList = b.toArray.toList :=
    List.ext_getElem? fun _ => getElem?_toList_congr left right fun p inside _ => same p inside
  rw [checksum_eq_foldl, checksum_eq_foldl, blocks]

theorem OneBlockApart.checksum_ne (left : a.WellFormed) (right : b.WellFormed)
    (apart : a.OneBlockApart b) : a.checksum ≠ b.checksum := by
  obtain ⟨p, inside, differ, others⟩ := apart
  have length : a.toArray.toList.length = b.toArray.toList.length := by
    rw [Array.length_toList, Array.length_toList, size_toArray left, size_toArray right]
  have bound : p.index < a.toArray.toList.length := by
    rw [Array.length_toList, size_toArray left]
    exact inside.index_lt
  obtain ⟨before, v, w, after, first, second, here, there⟩ :=
    exists_append_of_eq_except length bound fun i away =>
      getElem?_toList_congr left right fun q qInside index =>
        others q qInside fun same => away (by rw [← index, same])
  have changed : v ≠ w := by
    rintro rfl
    exact differ ((get_eq_get_iff left right inside).2 (here.trans there.symm))
  rw [checksum_eq_foldl, checksum_eq_foldl, first, second]
  exact foldl_ne Fnv.block_left_injective before after
    (fun h => (Fnv.block_injective h).ne changed) _

end Cube

end Karst
