import Karst.Proofs.Cube.Perimeter

namespace Karst

namespace LocalPos

def OnFaces (p lower upper : LocalPos) : Prop :=
  (lower.x ≤ p.x ∧ p.x ≤ upper.x) ∧ (lower.y ≤ p.y ∧ p.y ≤ upper.y) ∧
    (lower.z ≤ p.z ∧ p.z ≤ upper.z) ∧
    (p.x = lower.x ∨ p.x = upper.x ∨ p.y = lower.y ∨ p.y = upper.y ∨ p.z = lower.z ∨ p.z = upper.z)

/-- The position touches a face of the box grown by one block and clipped to the cube. -/
def Around (p lower upper : LocalPos) : Prop :=
  p.OnFaces ⟨lower.x - 1, lower.y - 1, lower.z - 1⟩
    ⟨min (upper.x + 1) (cubeSize - 1), min (upper.y + 1) (cubeSize - 1),
      min (upper.z + 1) (cubeSize - 1)⟩

end LocalPos

theorem mem_boxPerimeter_iff {lower upper p : LocalPos} :
    p ∈ boxPerimeter lower upper ↔ p.OnFaces lower upper := by
  simp only [boxPerimeter, List.mem_flatMap, List.mem_filterMap, mem_between_iff]
  constructor
  · rintro ⟨y, inY, z, inZ, x, inX, met⟩
    split at met
    case isTrue touches =>
      cases met
      exact ⟨inX, inY, inZ, touches⟩
    case isFalse => cases met
  · rintro ⟨inX, inY, inZ, touches⟩
    exact ⟨p.y, inY, p.z, inZ, p.x, inX, if_pos touches⟩

def LocalPos.Before (p q : LocalPos) : Prop :=
  p.y < q.y ∨ p.y = q.y ∧ (p.z < q.z ∨ p.z = q.z ∧ p.x < q.x)

theorem LocalPos.Before.ne {p q : LocalPos} (before : p.Before q) : p ≠ q := by
  rintro rfl
  simp [Before] at before

theorem pairwise_between (lower upper : Nat) : (between lower upper).Pairwise (· < ·) :=
  List.pairwise_lt_range'

theorem pairwise_boxPerimeter (lower upper : LocalPos) :
    (boxPerimeter lower upper).Pairwise LocalPos.Before := by
  apply List.pairwise_flatMap.2
  refine ⟨fun y _ => List.pairwise_flatMap.2 ⟨fun z _ => ?_, ?_⟩, ?_⟩
  · apply List.pairwise_filterMap.2
    apply (pairwise_between _ _).imp
    intro a b less p metA q metB
    simp only [Option.ite_none_right_eq_some, Option.some.injEq] at metA metB
    obtain ⟨_, rfl⟩ := metA
    obtain ⟨_, rfl⟩ := metB
    exact .inr ⟨rfl, .inr ⟨rfl, less⟩⟩
  · apply (pairwise_between _ _).imp
    intro a b less p metA q metB
    simp only [List.mem_filterMap, Option.ite_none_right_eq_some, Option.some.injEq] at metA metB
    obtain ⟨_, _, _, rfl⟩ := metA
    obtain ⟨_, _, _, rfl⟩ := metB
    exact .inr ⟨rfl, .inl less⟩
  · apply (pairwise_between _ _).imp
    intro a b less p metA q metB
    simp only [List.mem_flatMap, List.mem_filterMap, Option.ite_none_right_eq_some,
      Option.some.injEq] at metA metB
    obtain ⟨_, _, _, _, _, rfl⟩ := metA
    obtain ⟨_, _, _, _, _, rfl⟩ := metB
    exact .inl less

theorem nodup_boxPerimeter (lower upper : LocalPos) : (boxPerimeter lower upper).Nodup :=
  (pairwise_boxPerimeter lower upper).imp LocalPos.Before.ne

/-! ## How many -/

namespace LocalPos

def ofTriple : Nat × Nat × Nat ↪ LocalPos where
  toFun t := ⟨t.1, t.2.1, t.2.2⟩
  inj' _ _ same := by
    obtain ⟨x, y, z⟩ := mk.inj same
    exact Prod.ext x (Prod.ext y z)

def box (lower upper : LocalPos) : Finset LocalPos :=
  (Finset.Icc lower.x upper.x ×ˢ Finset.Icc lower.y upper.y ×ˢ Finset.Icc lower.z upper.z).map
    ofTriple

theorem mem_box {p lower upper : LocalPos} : p ∈ box lower upper ↔
    (lower.x ≤ p.x ∧ p.x ≤ upper.x) ∧ (lower.y ≤ p.y ∧ p.y ≤ upper.y) ∧
      (lower.z ≤ p.z ∧ p.z ≤ upper.z) := by
  have placed : p = ofTriple (p.x, p.y, p.z) := rfl
  rw [placed, box, Finset.mem_map']
  simp only [Finset.mem_product, Finset.mem_Icc]
  rfl

theorem card_box (lower upper : LocalPos) : (box lower upper).card =
    (upper.x + 1 - lower.x) * (upper.y + 1 - lower.y) * (upper.z + 1 - lower.z) := by
  simp [box, Nat.mul_assoc]

def core (lower upper : LocalPos) : Finset LocalPos :=
  box ⟨lower.x + 1, lower.y + 1, lower.z + 1⟩ ⟨upper.x - 1, upper.y - 1, upper.z - 1⟩

theorem mem_core {p lower upper : LocalPos} : p ∈ core lower upper ↔
    (lower.x < p.x ∧ p.x < upper.x) ∧ (lower.y < p.y ∧ p.y < upper.y) ∧
      (lower.z < p.z ∧ p.z < upper.z) := by
  rw [core, mem_box]
  dsimp only
  omega

theorem card_core (lower upper : LocalPos) : (core lower upper).card =
    (upper.x - 1 - lower.x) * (upper.y - 1 - lower.y) * (upper.z - 1 - lower.z) := by
  have shrunk (first last : Nat) : last - 1 + 1 - (first + 1) = last - 1 - first := by omega
  rw [core, card_box, shrunk, shrunk, shrunk]

theorem core_subset (lower upper : LocalPos) : core lower upper ⊆ box lower upper := by
  intro p member
  rw [mem_core] at member
  rw [mem_box]
  omega

end LocalPos

theorem toFinset_boxPerimeter (lower upper : LocalPos) :
    (boxPerimeter lower upper).toFinset = LocalPos.box lower upper \ LocalPos.core lower upper := by
  ext p
  rw [List.mem_toFinset, mem_boxPerimeter_iff, Finset.mem_sdiff, LocalPos.mem_box,
    LocalPos.mem_core, LocalPos.OnFaces]
  omega

theorem length_boxPerimeter (lower upper : LocalPos) : (boxPerimeter lower upper).length =
    (upper.x + 1 - lower.x) * (upper.y + 1 - lower.y) * (upper.z + 1 - lower.z) -
      (upper.x - 1 - lower.x) * (upper.y - 1 - lower.y) * (upper.z - 1 - lower.z) := by
  rw [← List.toFinset_card_of_nodup (nodup_boxPerimeter lower upper), toFinset_boxPerimeter,
    Finset.card_sdiff_of_subset (LocalPos.core_subset lower upper), LocalPos.card_box,
    LocalPos.card_core]

theorem boxPerimeter_eq_nil_iff {lower upper : LocalPos} : boxPerimeter lower upper = [] ↔
    upper.x < lower.x ∨ upper.y < lower.y ∨ upper.z < lower.z := by
  rw [List.eq_nil_iff_forall_not_mem]
  simp only [mem_boxPerimeter_iff, LocalPos.OnFaces]
  constructor
  · intro bare
    have corner := bare lower
    omega
  · intro crossed p
    omega

/-! ## Water -/

theorem countP_eq_ncard {α : Type} {items : List α} (nodup : items.Nodup) (keep : α → Bool) :
    items.countP keep = {a | a ∈ items ∧ keep a}.ncard := by
  classical
  rw [List.countP_eq_length_filter, ← List.toFinset_card_of_nodup (nodup.filter keep),
    ← Set.ncard_coe_finset]
  congr 1
  ext a
  simp

namespace Cube

noncomputable def stillWater (c : Cube) (lower upper : LocalPos) : Nat :=
  {p : LocalPos | p.Around lower upper ∧ (c.blockAt p).isStillWater}.ncard

theorem waterAround_eq (c : Cube) (lower upper : LocalPos) :
    c.waterAround lower upper = c.stillWater lower upper := by
  rw [waterAround, countP_eq_ncard (nodup_boxPerimeter _ _)]
  simp only [mem_boxPerimeter_iff]
  rfl

theorem perimeter_exact :
    (∀ lower upper : LocalPos,
      (boxPerimeter lower upper).Pairwise LocalPos.Before ∧ (boxPerimeter lower upper).Nodup ∧
      (∀ p, p ∈ boxPerimeter lower upper ↔ p.OnFaces lower upper) ∧
      (boxPerimeter lower upper = [] ↔
        upper.x < lower.x ∨ upper.y < lower.y ∨ upper.z < lower.z) ∧
      (boxPerimeter lower upper).length =
        (upper.x + 1 - lower.x) * (upper.y + 1 - lower.y) * (upper.z + 1 - lower.z) -
          (upper.x - 1 - lower.x) * (upper.y - 1 - lower.y) * (upper.z - 1 - lower.z)) ∧
    ∀ (c : Cube) (lower upper : LocalPos) (limit : Nat), c.WellFormed →
      c.perimeterWater lower upper limit = .ok (min (limit + 1) (c.stillWater lower upper)) := by
  constructor
  · intro lower upper
    exact ⟨pairwise_boxPerimeter lower upper, nodup_boxPerimeter lower upper,
      fun _ => mem_boxPerimeter_iff, boxPerimeter_eq_nil_iff, length_boxPerimeter lower upper⟩
  · intro c lower upper limit wf
    rw [perimeterWater_eq wf, waterAround_eq]

theorem perimeter_exact_in_corner :
    let flood := filled ⟨0, 0, 0⟩ .water
    flood.WellFormed ∧ flood.perimeterWater ⟨0, 0, 0⟩ ⟨0, 0, 0⟩ 100 = .ok 8 ∧
      flood.perimeterWater ⟨0, 0, 0⟩ ⟨0, 0, 0⟩ 4 = .ok 5 := by
  intro flood
  have wf : flood.WellFormed := wellFormed_filled ⟨0, 0, 0⟩ .water
  have eight : flood.stillWater ⟨0, 0, 0⟩ ⟨0, 0, 0⟩ = 8 := by
    rw [← waterAround_eq]
    decide +kernel
  obtain ⟨_, counted⟩ := perimeter_exact
  refine ⟨wf, ?_, ?_⟩
  · rw [counted flood _ _ _ wf, eight]
    rfl
  · rw [counted flood _ _ _ wf, eight]
    rfl

end Cube

end Karst
