import Karst.Geometry.Vector
import Karst.Feature.Script

namespace Karst

structure Ellipsoid where
  center : Vec3
  radius : Float
  height : Float

namespace Ellipsoid

def offset (block : Int32) (center radius : Float) : Float :=
  (block.toFloat + 0.5 - center) / radius

def lower (e : Ellipsoid) : BlockPos :=
  Vec3.floor ⟨e.center.x - e.radius, e.center.y - e.height, e.center.z - e.radius⟩

def upper (e : Ellipsoid) : BlockPos :=
  Vec3.floor ⟨e.center.x + e.radius, e.center.y + e.height, e.center.z + e.radius⟩

variable {σ : Type}

/-- Does `before` for `count` numbers up to `last`, the greatest one closest to `rest`. -/
@[specialize] def downFrom (before : Int32 → Script σ → Script σ) :
    (count : Nat) → (last : Int32) → (rest : Script σ) → Script σ
  | 0, _, rest => rest
  | count + 1, last, rest => downFrom before count (last - 1) (before last rest)

/-- Does `before` for the numbers from `first` to `last`, rising, and then `rest`. -/
@[inline] def along (first last : Int32) (before : Int32 → Script σ → Script σ)
    (rest : Script σ) : Script σ :=
  downFrom before (last.toInt - first.toInt + 1).toNat last rest

/-- Writes `fill y` at every block inside that is on a level `y` with `keep` of its offset. -/
def write (e : Ellipsoid) (keep : Float → Bool) (fill : Int32 → Block) (rest : Script σ) :
    Script σ :=
  let lower := e.lower
  let upper := e.upper
  along lower.y upper.y (fun y rest =>
    let dy := offset y e.center.y e.height
    if keep dy then
      let block := fill y
      along lower.z upper.z (fun z rest =>
        let dz := offset z e.center.z e.radius
        along lower.x upper.x (fun x rest =>
          let dx := offset x e.center.x e.radius
          if dx * dx + dy * dy + dz * dz < 1 then .set ⟨x, y, z⟩ block rest else rest) rest) rest
    else rest) rest

end Ellipsoid

end Karst
