import Karst.Feature.Tree
import Karst.Proofs.Guarded

namespace Karst

theorem toInt_min (a b : Int32) : (min a b).toInt = min a.toInt b.toInt := by
  change (if a ≤ b then a else b).toInt = _
  split
  case isTrue le =>
    rw [Int32.le_iff_toInt_le] at le
    omega
  case isFalse gt =>
    rw [Int32.le_iff_toInt_le] at gt
    omega

theorem toInt_max (a b : Int32) : (max a b).toInt = max a.toInt b.toInt := by
  change (if a ≤ b then b else a).toInt = _
  split
  case isTrue le =>
    rw [Int32.le_iff_toInt_le] at le
    omega
  case isFalse gt =>
    rw [Int32.le_iff_toInt_le] at gt
    omega

namespace CubeBox

theorem contains_iff (box : CubeBox) (c : CubeCoord) :
    box.contains c ↔
      (box.lower.x.toInt ≤ c.x.toInt ∧ c.x.toInt ≤ box.upper.x.toInt) ∧
      (box.lower.y.toInt ≤ c.y.toInt ∧ c.y.toInt ≤ box.upper.y.toInt) ∧
      (box.lower.z.toInt ≤ c.z.toInt ∧ c.z.toInt ≤ box.upper.z.toInt) := by
  simp [contains, Int32.le_iff_toInt_le, and_assoc]

structure Around (box : CubeBox) (cubes : Set CubeCoord) : Prop where
  covers : ∀ c ∈ cubes, box.contains c
  least : ∀ other : CubeBox, (∀ c ∈ cubes, other.contains c) →
    other.contains box.lower ∧ other.contains box.upper

theorem around_point (c : CubeCoord) : (point c).Around {c} := by
  constructor
  · rintro c rfl
    simp [contains_iff, point]
  · intro other holds
    exact ⟨holds c rfl, holds c rfl⟩

theorem contains_extend {box : CubeBox} {c d : CubeCoord} (holds : box.contains d) :
    (box.extend c).contains d := by
  rw [contains_iff] at holds ⊢
  simp only [extend, toInt_min, toInt_max]
  omega

theorem contains_extend_self {box : CubeBox} {c : CubeCoord} : (box.extend c).contains c := by
  rw [contains_iff]
  simp only [extend, toInt_min, toInt_max]
  omega

theorem contains_corners_extend {box other : CubeBox} {c : CubeCoord}
    (lower : other.contains box.lower) (upper : other.contains box.upper)
    (holds : other.contains c) :
    other.contains (box.extend c).lower ∧ other.contains (box.extend c).upper := by
  simp only [contains_iff, extend, toInt_min, toInt_max] at lower upper holds ⊢
  omega

theorem Around.extend {box : CubeBox} {cubes : Set CubeCoord} (around : box.Around cubes)
    (c : CubeCoord) : (box.extend c).Around (insert c cubes) := by
  constructor
  · rintro d (rfl | member)
    · exact contains_extend_self
    · exact contains_extend (around.covers d member)
  · intro other holds
    obtain ⟨lower, upper⟩ := around.least other fun d member => holds d (.inr member)
    exact contains_corners_extend lower upper (holds c (.inl rfl))

theorem contains_of_corners {a b : CubeBox} {c : CubeCoord} (lower : a.contains b.lower)
    (upper : a.contains b.upper) (holds : b.contains c) : a.contains c := by
  rw [contains_iff] at *
  omega

theorem Around.union {a b : CubeBox} {first second : Set CubeCoord} (aAround : a.Around first)
    (bAround : b.Around second) : (a.union b).Around (first ∪ second) := by
  have lower : (a.union b).contains b.lower := contains_extend contains_extend_self
  have upper : (a.union b).contains b.upper := contains_extend_self
  constructor
  · rintro c (member | member)
    · exact contains_extend (contains_extend (aAround.covers c member))
    · exact contains_of_corners lower upper (bAround.covers c member)
  · intro other holds
    obtain ⟨aLower, aUpper⟩ := aAround.least other fun c member => holds c (.inl member)
    obtain ⟨bLower, bUpper⟩ := bAround.least other fun c member => holds c (.inr member)
    obtain ⟨midLower, midUpper⟩ := contains_corners_extend aLower aUpper bLower
    exact contains_corners_extend midLower midUpper bUpper

theorem Around.unique {a b : CubeBox} {cubes : Set CubeCoord} (first : a.Around cubes)
    (second : b.Around cubes) : a = b := by
  obtain ⟨aLower, aUpper⟩ := first.least b second.covers
  obtain ⟨bLower, bUpper⟩ := second.least a first.covers
  obtain ⟨⟨_, _, _⟩, ⟨_, _, _⟩⟩ := a
  obtain ⟨⟨_, _, _⟩, ⟨_, _, _⟩⟩ := b
  simp only [contains_iff, mk.injEq, CubeCoord.mk.injEq, ← Int32.toInt_inj] at *
  omega

end CubeBox

/-- Bounds that are absent for no cubes at all, and otherwise the least box around them. -/
def Bounding (bounds : Option CubeBox) (cubes : Set CubeCoord) : Prop :=
  match bounds with
  | some box => cubes.Nonempty ∧ box.Around cubes
  | none => cubes = ∅

namespace Bounding

variable {bounds other : Option CubeBox} {cubes more : Set CubeCoord}

theorem covers (bounding : Bounding bounds cubes) {c : CubeCoord} (member : c ∈ cubes) :
    bounds.any fun box => box.contains c := by
  cases bounds with
  | none =>
    have empty : cubes = ∅ := bounding
    simp [empty] at member
  | some box => exact bounding.2.covers c member

theorem extend (bounding : Bounding bounds cubes) (c : CubeCoord) :
    Bounding (some (FeatureNode.extendBounds bounds c)) (insert c cubes) := by
  refine ⟨⟨c, .inl rfl⟩, ?_⟩
  cases bounds with
  | none =>
    have empty : cubes = ∅ := bounding
    rw [empty, insert_empty_eq]
    exact CubeBox.around_point c
  | some box => exact bounding.2.extend c

theorem unite (first : Bounding bounds cubes) (second : Bounding other more) :
    Bounding (FeatureNode.uniteBounds bounds other) (cubes ∪ more) := by
  cases bounds with
  | none =>
    have empty : cubes = ∅ := first
    rw [empty, Set.empty_union]
    cases other with
    | none => exact second
    | some b => exact second
  | some a =>
    cases other with
    | none =>
      have empty : more = ∅ := second
      rw [empty, Set.union_empty]
      exact first
    | some b => exact ⟨first.1.inl, first.2.union second.2⟩

theorem unique (first : Bounding bounds cubes) (second : Bounding other cubes) : bounds = other := by
  cases bounds with
  | none =>
    have empty : cubes = ∅ := first
    cases other with
    | none => rfl
    | some b => exact (second.1.ne_empty empty).elim
  | some a =>
    cases other with
    | none => exact (first.1.ne_empty second).elim
    | some b => exact congrArg some (first.2.unique second.2)

end Bounding

end Karst
