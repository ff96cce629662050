/-!
Gradient noise on two interleaved cubic lattices that together are body centred. A value is the sum,
over the nearest points of both lattices, of a falloff in the distance times a hashed gradient.
-/

namespace Karst.Gradient

structure Direction where
  x : Float32
  y : Float32
  z : Float32
deriving Inhabited

def edges : Array Direction :=
  #[⟨0, 1, 1⟩, ⟨0, -1, 1⟩, ⟨0, 1, -1⟩, ⟨0, -1, -1⟩, ⟨1, 0, 1⟩, ⟨-1, 0, 1⟩, ⟨1, 0, -1⟩, ⟨-1, 0, -1⟩,
    ⟨1, 1, 0⟩, ⟨-1, 1, 0⟩, ⟨1, -1, 0⟩, ⟨-1, -1, 0⟩]

/-- The twelve edge directions five times over, then four of them once more. -/
def directions : Array Direction :=
  edges ++ edges ++ edges ++ edges ++ edges ++ #[⟨1, 1, 0⟩, ⟨0, -1, 1⟩, ⟨-1, 1, 0⟩, ⟨0, -1, -1⟩]

def primeX : Int32 := 501125321

def primeY : Int32 := 1136930381

def primeZ : Int32 := 1720413743

def gradientIndex (seed i j k : Int32) : Nat :=
  let h := (seed ^^^ i ^^^ j ^^^ k) * 0x27d4eb2d
  let h := h ^^^ (h >>> 15)
  ((h &&& 252) >>> 2).toUInt32.toNat

def contribution (seed i j k : Int32) (x y z : Float32) : Float32 :=
  let g := directions[gradientIndex seed i j k]!
  x * g.x + y * g.y + z * g.z

/-- The nearest whole number, halves away from zero. -/
def nearest (x : Float32) : Int32 := (if x ≥ 0 then x + 0.5 else x - 0.5).toInt32

@[inline] def fourth (a : Float32) : Float32 := (a * a) * (a * a)

/-- One lattice seen from a point: the hashed cell, the offset from its centre, the sides that the
offset leans to and the distances along them, and the falloff. -/
structure Cell where
  seed : Int32
  i : Int32
  j : Int32
  k : Int32
  x : Float32
  y : Float32
  z : Float32
  sideX : Int32
  sideY : Int32
  sideZ : Int32
  leanX : Float32
  leanY : Float32
  leanZ : Float32
  falloff : Float32

def Cell.own (c : Cell) : Float32 :=
  if c.falloff > 0 then fourth c.falloff * contribution c.seed c.i c.j c.k c.x c.y c.z else 0

def Cell.adjacent (c : Cell) (value : Float32) : Float32 :=
  if c.leanX ≥ c.leanY && c.leanX ≥ c.leanZ then
    let b := c.falloff + c.leanX + c.leanX
    if b > 1 then
      value + fourth (b - 1) *
        contribution c.seed (c.i - c.sideX * primeX) c.j c.k (c.x + c.sideX.toFloat32) c.y c.z
    else value
  else if c.leanY > c.leanX && c.leanY ≥ c.leanZ then
    let b := c.falloff + c.leanY + c.leanY
    if b > 1 then
      value + fourth (b - 1) *
        contribution c.seed c.i (c.j - c.sideY * primeY) c.k c.x (c.y + c.sideY.toFloat32) c.z
    else value
  else
    let b := c.falloff + c.leanZ + c.leanZ
    if b > 1 then
      value + fourth (b - 1) *
        contribution c.seed c.i c.j (c.k - c.sideZ * primeZ) c.x c.y (c.z + c.sideZ.toFloat32)
    else value

def Cell.add (c : Cell) (value : Float32) : Float32 :=
  c.adjacent (if c.falloff > 0 then value + c.own else value)

/-- The cell of the other lattice, whose centres are the corners of this one. -/
def Cell.shifted (c : Cell) : Cell :=
  let leanX := 0.5 - c.leanX
  let leanY := 0.5 - c.leanY
  let leanZ := 0.5 - c.leanZ
  { seed := ~~~c.seed
    i := c.i + ((c.sideX >>> 1) &&& primeX)
    j := c.j + ((c.sideY >>> 1) &&& primeY)
    k := c.k + ((c.sideZ >>> 1) &&& primeZ)
    x := c.sideX.toFloat32 * leanX
    y := c.sideY.toFloat32 * leanY
    z := c.sideZ.toFloat32 * leanZ
    sideX := -c.sideX
    sideY := -c.sideY
    sideZ := -c.sideZ
    leanX
    leanY
    leanZ
    falloff := c.falloff + (0.75 - leanX) - (leanY + leanZ) }

def Cell.around (seed : Int32) (x y z : Float32) : Cell :=
  let i := nearest x
  let j := nearest y
  let k := nearest z
  let x := x - i.toFloat32
  let y := y - j.toFloat32
  let z := z - k.toFloat32
  let sideX := (-1 - x).toInt32 ||| 1
  let sideY := (-1 - y).toInt32 ||| 1
  let sideZ := (-1 - z).toInt32 ||| 1
  { seed
    i := i * primeX
    j := j * primeY
    k := k * primeZ
    x, y, z, sideX, sideY, sideZ
    leanX := sideX.toFloat32 * -x
    leanY := sideY.toFloat32 * -y
    leanZ := sideZ.toFloat32 * -z
    falloff := (0.6 - x * x) - (y * y + z * z) }

/-- Turns the lattice axes off the world's, so that no level of the world shows the lattice. -/
def rotated (x y z : Float32) : Direction :=
  let r := (x + y + z) * (2 / 3)
  ⟨r - x, r - y, r - z⟩

def noise (seed : Int32) (frequency x y z : Float32) : Float32 :=
  let p := rotated (x * frequency) (y * frequency) (z * frequency)
  let cell := Cell.around seed p.x p.y p.z
  cell.shifted.add (cell.add 0) * 32.69428253173828125

end Karst.Gradient
