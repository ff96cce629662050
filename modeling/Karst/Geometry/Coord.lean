import Karst.Fault

namespace Karst

structure BlockPos where
  x : Int32
  y : Int32
  z : Int32
deriving DecidableEq, Hashable, Repr, Inhabited

structure CubeCoord where
  x : Int32
  y : Int32
  z : Int32
deriving DecidableEq, Hashable, Repr, Inhabited

/-- A position counted from a cube's lowest corner; below `cubeSize` on each axis when it lies in
the cube. -/
structure LocalPos where
  x : Nat
  y : Nat
  z : Nat
deriving DecidableEq, Repr, Inhabited

def cubeSize : Nat := 16

def cubeVolume : Nat := 4096

namespace LocalPos

def index (p : LocalPos) : Nat := (p.y * cubeSize + p.z) * cubeSize + p.x

def Inside (p : LocalPos) : Prop := p.x < cubeSize ∧ p.y < cubeSize ∧ p.z < cubeSize

instance (p : LocalPos) : Decidable p.Inside :=
  inferInstanceAs (Decidable (p.x < cubeSize ∧ p.y < cubeSize ∧ p.z < cubeSize))

end LocalPos

namespace CubeCoord

instance : Ord CubeCoord where
  compare a b := (compare a.x b.x).then ((compare a.y b.y).then (compare a.z b.z))

def ofBlock (p : BlockPos) : CubeCoord := ⟨p.x >>> 4, p.y >>> 4, p.z >>> 4⟩

def minBlock (c : CubeCoord) : Guarded BlockPos := do
  let x ← Checked.mul c.x 16
  let y ← Checked.mul c.y 16
  let z ← Checked.mul c.z 16
  return ⟨x, y, z⟩

def offset (c : CubeCoord) (dx dy dz : Int32) : Guarded CubeCoord := do
  let x ← Checked.add c.x dx
  let y ← Checked.add c.y dy
  let z ← Checked.add c.z dz
  return ⟨x, y, z⟩

def chebyshev (a b : CubeCoord) : Guarded Int32 := do
  let dx ← Checked.abs (← Checked.sub a.x b.x)
  let dy ← Checked.abs (← Checked.sub a.y b.y)
  let dz ← Checked.abs (← Checked.sub a.z b.z)
  return max (max dx dy) dz

end CubeCoord

namespace BlockPos

def offset (p : BlockPos) (dx dy dz : Int32) : Guarded BlockPos := do
  let x ← Checked.add p.x dx
  let y ← Checked.add p.y dy
  let z ← Checked.add p.z dz
  return ⟨x, y, z⟩

def relativeTo (p corner : BlockPos) : Guarded LocalPos := do
  let x ← Checked.sub p.x corner.x
  let y ← Checked.sub p.y corner.y
  let z ← Checked.sub p.z corner.z
  return ⟨x.toInt64.toUInt64.toNat, y.toInt64.toUInt64.toNat, z.toInt64.toUInt64.toNat⟩

def atLocal (corner : BlockPos) (l : LocalPos) : Guarded BlockPos :=
  corner.offset (Int32.ofNat l.x) (Int32.ofNat l.y) (Int32.ofNat l.z)

end BlockPos

end Karst
