import Karst.Geometry.Coord

namespace Karst

structure Vec3 where
  x : Float
  y : Float
  z : Float
deriving Inhabited

namespace Vec3

def zero : Vec3 := ⟨0, 0, 0⟩

instance : Add Vec3 where
  add a b := ⟨a.x + b.x, a.y + b.y, a.z + b.z⟩

instance : Sub Vec3 where
  sub a b := ⟨a.x - b.x, a.y - b.y, a.z - b.z⟩

def scale (a : Vec3) (s : Float) : Vec3 := ⟨a.x * s, a.y * s, a.z * s⟩

/-- The unit step along `yaw`, which turns from `x` to `z`, and `pitch`, which rises to `y`. -/
def ofAngles (yaw pitch : Float32) : Vec3 :=
  let level := pitch.cos.toFloat
  ⟨yaw.cos.toFloat * level, pitch.sin.toFloat, yaw.sin.toFloat * level⟩

/-- The block that holds the point; a coordinate beyond the word goes to its end. -/
def floor (a : Vec3) : BlockPos := ⟨a.x.floor.toInt32, a.y.floor.toInt32, a.z.floor.toInt32⟩

end Vec3

end Karst
