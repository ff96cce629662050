import Karst.Geometry.Vector
import Karst.Hash
import Karst.Random.ChaCha

namespace Karst

/-- A key stream read up to `position`; `block` holds the sixteen words around it once the first of
them was read. -/
structure Stream where
  key : ChaCha.Key
  position : Nat
  block : Array UInt32
deriving Inhabited

namespace Stream

def ofSeed (seed : UInt64) : Stream := ⟨ChaCha.Key.ofSeed seed, 0, #[]⟩

def forCube (seed : UInt64) (c : CubeCoord) : Stream := ofSeed (coordHash seed c)

def nextUInt32 (s : Stream) : UInt32 × Stream :=
  if s.position % 16 = 0 then
    let block := ChaCha.block s.key (UInt64.ofNat (s.position / 16))
    (block.getD 0 0, { s with position := s.position + 1, block })
  else
    (s.block.getD (s.position % 16) 0, { s with position := s.position + 1 })

def nextUInt64 (s : Stream) : UInt64 × Stream :=
  let (low, s) := s.nextUInt32
  let (high, s) := s.nextUInt32
  (low.toUInt64 ||| (high.toUInt64 <<< 32), s)

def nextFloat32 (s : Stream) : Float32 × Stream :=
  let (w, s) := s.nextUInt32
  ((w >>> 8).toFloat32 * Float32.ofBits 0x33800000, s)

def nextFloat (s : Stream) : Float × Stream :=
  let (w, s) := s.nextUInt64
  ((w >>> 11).toFloat * Float.ofBits 0x3ca0000000000000, s)

/-- Uniform in `0 .. n - 1`: the high half of a product with one word, carried into by a second
word when the low half could. For `n = 0` the answer is 0 and nothing is drawn. -/
def below (s : Stream) (n : UInt32) : UInt32 × Stream :=
  if n = 0 then (0, s)
  else
    let (w, s) := s.nextUInt32
    let product := w.toUInt64 * n.toUInt64
    let high := (product >>> 32).toUInt32
    let low := product.toUInt32
    if 0 - n < low then
      let (w, s) := s.nextUInt32
      let carry := ((w.toUInt64 * n.toUInt64) >>> 32) + low.toUInt64
      (if carry >>> 32 = 0 then high else high + 1, s)
    else (high, s)

/-- True with a chance of one in `n`; always for `n = 0`. -/
def oneIn (s : Stream) (n : UInt32) : Bool × Stream :=
  let (draw, s) := s.below n
  (draw == 0, s)

def nextPoint (s : Stream) (corner : BlockPos) : Vec3 × Stream :=
  let (dx, s) := s.nextFloat
  let (dy, s) := s.nextFloat
  let (dz, s) := s.nextFloat
  (⟨corner.x.toFloat + dx * 16, corner.y.toFloat + dy * 16, corner.z.toFloat + dz * 16⟩, s)

def skip (s : Stream) : Nat → Stream
  | 0 => s
  | count + 1 => skip s.nextUInt64.2 count

end Stream

end Karst
