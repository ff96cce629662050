import Karst.Cube.Voxels

namespace Karst

def between (lower upper : Nat) : List Nat := List.range' lower (upper + 1 - lower)

/-- The positions of a box that touch one of its six faces, by `y`, then `z`, then `x`. -/
def boxPerimeter (lower upper : LocalPos) : List LocalPos :=
  (between lower.y upper.y).flatMap fun y =>
    (between lower.z upper.z).flatMap fun z =>
      (between lower.x upper.x).filterMap fun x =>
        if x = lower.x ∨ x = upper.x ∨ y = lower.y ∨ y = upper.y ∨ z = lower.z ∨ z = upper.z then
          some ⟨x, y, z⟩
        else none

/-- Counts the still water among some positions and stops once the count exceeds `limit`. -/
def Cube.countWater (c : Cube) (limit : Nat) (found : Nat) : List LocalPos → Guarded Nat
  | [] => .ok found
  | p :: rest => do
      if (← c.get p).isStillWater then
        if limit < found + 1 then return found + 1
        countWater c limit (found + 1) rest
      else
        countWater c limit found rest

/-- The still water on the faces of a box grown by one block and clipped to the cube. -/
def Cube.perimeterWater (c : Cube) (lower upper : LocalPos) (limit : Nat) : Guarded Nat :=
  let last := cubeSize - 1
  c.countWater limit 0 (boxPerimeter ⟨lower.x - 1, lower.y - 1, lower.z - 1⟩
    ⟨min (upper.x + 1) last, min (upper.y + 1) last, min (upper.z + 1) last⟩)

end Karst
