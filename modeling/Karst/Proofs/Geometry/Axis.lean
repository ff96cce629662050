import Karst.Geometry.Coord

namespace Karst

inductive Axis where
  | x
  | y
  | z
deriving DecidableEq

def BlockPos.along (p : BlockPos) : Axis → Int32
  | .x => p.x
  | .y => p.y
  | .z => p.z

def CubeCoord.along (c : CubeCoord) : Axis → Int32
  | .x => c.x
  | .y => c.y
  | .z => c.z

def LocalPos.along (p : LocalPos) : Axis → Nat
  | .x => p.x
  | .y => p.y
  | .z => p.z

theorem BlockPos.eq_of_along {p q : BlockPos} (same : ∀ axis, p.along axis = q.along axis) :
    p = q := by
  cases p
  cases q
  exact (mk.injEq ..).mpr ⟨same .x, same .y, same .z⟩

theorem CubeCoord.eq_of_along {a b : CubeCoord} (same : ∀ axis, a.along axis = b.along axis) :
    a = b := by
  cases a
  cases b
  exact (mk.injEq ..).mpr ⟨same .x, same .y, same .z⟩

def CubeCoord.OneAxisApart (a b : CubeCoord) : Prop :=
  ∃ axis, a.along axis ≠ b.along axis ∧ ∀ other, other ≠ axis → a.along other = b.along other

end Karst
