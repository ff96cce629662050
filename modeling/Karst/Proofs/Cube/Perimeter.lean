import Karst.Cube.Perimeter
import Karst.Proofs.Cube.Voxels

namespace Karst

open Guarded

theorem mem_between_iff {lower upper n : Nat} :
    n ∈ between lower upper ↔ lower ≤ n ∧ n ≤ upper := by
  rw [between, List.mem_range'_1]
  omega

theorem inside_of_mem_boxPerimeter {lower upper p : LocalPos}
    (clipped : upper.x < cubeSize ∧ upper.y < cubeSize ∧ upper.z < cubeSize)
    (member : p ∈ boxPerimeter lower upper) : p.Inside := by
  simp only [boxPerimeter, List.mem_flatMap, List.mem_filterMap, mem_between_iff] at member
  obtain ⟨y, ⟨_, yBound⟩, z, ⟨_, zBound⟩, x, ⟨_, xBound⟩, here⟩ := member
  split at here
  case isTrue =>
    cases here
    simp only [LocalPos.Inside]
    omega
  case isFalse => cases here

namespace Cube

def waterAround (c : Cube) (lower upper : LocalPos) : Nat :=
  (boxPerimeter ⟨lower.x - 1, lower.y - 1, lower.z - 1⟩
    ⟨min (upper.x + 1) (cubeSize - 1), min (upper.y + 1) (cubeSize - 1),
      min (upper.z + 1) (cubeSize - 1)⟩).countP fun p => (c.blockAt p).isStillWater

theorem inside_around {lower upper : LocalPos} :
    ∀ p ∈ boxPerimeter ⟨lower.x - 1, lower.y - 1, lower.z - 1⟩
      ⟨min (upper.x + 1) (cubeSize - 1), min (upper.y + 1) (cubeSize - 1),
        min (upper.z + 1) (cubeSize - 1)⟩, p.Inside := by
  refine fun p member => inside_of_mem_boxPerimeter ?_ member
  simp only [cubeSize]
  omega

theorem countWater_eq {c : Cube} (wf : c.WellFormed) {limit found : Nat} (below : found ≤ limit)
    {ps : List LocalPos} (inside : ∀ p ∈ ps, p.Inside) :
    c.countWater limit found ps =
      .ok (min (limit + 1) (found + ps.countP fun p => (c.blockAt p).isStillWater)) := by
  induction ps generalizing found with
  | nil =>
    rw [countWater, List.countP_nil]
    congr 1
    omega
  | cons p ps ih =>
    have rest : ∀ q ∈ ps, q.Inside := fun q member => inside q (List.mem_cons_of_mem _ member)
    rw [countWater, get_eq_blockAt wf (inside p (List.mem_cons_self ..)), ok_bind, List.countP_cons]
    cases wet : (c.blockAt p).isStillWater with
    | true =>
      simp only [if_true]
      split
      case isTrue exceeded =>
        rw [pure_eq]
        congr 1
        omega
      case isFalse =>
        rw [ih (by omega) rest]
        congr 2
        omega
    | false =>
      simp only [Bool.false_eq_true, if_false]
      exact ih below rest

theorem perimeterWater_eq {c : Cube} (wf : c.WellFormed) (lower upper : LocalPos) (limit : Nat) :
    c.perimeterWater lower upper limit = .ok (min (limit + 1) (c.waterAround lower upper)) := by
  have counted := countWater_eq wf (Nat.zero_le limit) (@inside_around lower upper)
  rw [Nat.zero_add] at counted
  exact counted

theorem Same.waterAround_eq {a b : Cube} (same : Same a b) (lower upper : LocalPos) :
    a.waterAround lower upper = b.waterAround lower upper := by
  simp only [waterAround, blockAt, same.blocks]

end Cube

end Karst
