import Karst.Geometry.Coord
import Karst.Proofs.Guarded

namespace Karst.CubeCoord

theorem compare_eq (a b : CubeCoord) : compare a b =
    compareLex (compareOn x) (compareLex (compareOn y) (compareOn z)) a b := rfl

instance : Std.TransOrd CubeCoord :=
  inferInstanceAs (Std.TransCmp (compareLex (compareOn x) (compareLex (compareOn y) (compareOn z))))

instance : Std.LawfulEqOrd CubeCoord where
  eq_of_compare := by
    rintro ⟨x, y, z⟩ ⟨x', y', z'⟩ same
    simp only [compare_eq, compareLex, compareOn, Ordering.then_eq_eq,
      Std.LawfulEqOrd.compare_eq_iff_eq] at same
    obtain ⟨rfl, rfl, rfl⟩ := same
    rfl

end Karst.CubeCoord
