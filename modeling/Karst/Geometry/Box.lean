import Karst.Geometry.Coord

namespace Karst

structure CubeBox where
  lower : CubeCoord
  upper : CubeCoord
deriving DecidableEq, Repr, Inhabited

namespace CubeBox

def spanning (a b : CubeCoord) : CubeBox :=
  ⟨⟨min a.x b.x, min a.y b.y, min a.z b.z⟩, ⟨max a.x b.x, max a.y b.y, max a.z b.z⟩⟩

def point (c : CubeCoord) : CubeBox := ⟨c, c⟩

def contains (box : CubeBox) (c : CubeCoord) : Bool :=
  box.lower.x ≤ c.x && c.x ≤ box.upper.x && box.lower.y ≤ c.y && c.y ≤ box.upper.y &&
    box.lower.z ≤ c.z && c.z ≤ box.upper.z

def intersects (a b : CubeBox) : Bool :=
  a.lower.x ≤ b.upper.x && b.lower.x ≤ a.upper.x && a.lower.y ≤ b.upper.y &&
    b.lower.y ≤ a.upper.y && a.lower.z ≤ b.upper.z && b.lower.z ≤ a.upper.z

def extend (box : CubeBox) (c : CubeCoord) : CubeBox :=
  ⟨⟨min box.lower.x c.x, min box.lower.y c.y, min box.lower.z c.z⟩,
    ⟨max box.upper.x c.x, max box.upper.y c.y, max box.upper.z c.z⟩⟩

def union (a b : CubeBox) : CubeBox := (a.extend b.lower).extend b.upper

def extent (lower upper : Int32) : Nat := (upper.toInt - lower.toInt + 1).toNat

def volume (box : CubeBox) : Guarded UInt64 := do
  let face ← Checked.uint64 (extent box.lower.x box.upper.x * extent box.lower.y box.upper.y)
  Checked.uint64 (face.toNat * extent box.lower.z box.upper.z)

def axis (lower upper : Int32) : List Int32 :=
  (List.range (extent lower upper)).map fun (i : Nat) => Int32.ofInt (lower.toInt + Int.ofNat i)

def cubes (box : CubeBox) : List CubeCoord :=
  (axis box.lower.x box.upper.x).flatMap fun x =>
    (axis box.lower.y box.upper.y).flatMap fun y =>
      (axis box.lower.z box.upper.z).map fun z => ⟨x, y, z⟩

end CubeBox

def CubeCoord.neighborhood (c : CubeCoord) (range : Int32) : Guarded (List CubeCoord) := do
  let r := max range 0
  let lower ← c.offset (-r) (-r) (-r)
  let upper ← c.offset r r r
  return CubeBox.cubes ⟨lower, upper⟩

end Karst
