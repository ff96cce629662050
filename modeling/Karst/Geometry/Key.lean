import Karst.Geometry.Coord

/-!
A cube coordinate packed into one 64-bit key: 21 bits of two's complement an axis, `x` highest, the
top bit clear.
-/

namespace Karst.CubeKey

def axisMin : Int32 := -1048576

def axisMax : Int32 := 1048575

def fieldMask : UInt64 := 0x1fffff

structure RangeError where
  axis : Char
  value : Int32
deriving DecidableEq, Repr

def RangeError.message (e : RangeError) : String :=
  "cube axis " ++ e.axis.toString ++ " = " ++ toString e.value.toInt ++ " is outside [" ++
    toString axisMin.toInt ++ ", " ++ toString axisMax.toInt ++ "]"

def inRange (value : Int32) : Bool := axisMin ≤ value && value ≤ axisMax

def clampAxis (value : Int32) : Int32 :=
  if value < axisMin then axisMin else if axisMax < value then axisMax else value

def field (value : Int32) : UInt64 := value.toInt64.toUInt64 &&& fieldMask

def join (c : CubeCoord) : UInt64 := field c.x <<< 42 ||| field c.y <<< 21 ||| field c.z

/-- The key of a cube; an axis outside the packed range counts as the nearest value inside it. -/
def pack (c : CubeCoord) : UInt64 := join ⟨clampAxis c.x, clampAxis c.y, clampAxis c.z⟩

def tryPack (c : CubeCoord) : Except RangeError UInt64 := do
  unless inRange c.x do throw ⟨'x', c.x⟩
  unless inRange c.y do throw ⟨'y', c.y⟩
  unless inRange c.z do throw ⟨'z', c.z⟩
  return join c

def signExtend (bits : UInt64) : Int32 := ((bits <<< 43).toInt64 >>> 43).toInt32

def unpack (key : UInt64) : CubeCoord :=
  ⟨signExtend (key >>> 42 &&& fieldMask), signExtend (key >>> 21 &&& fieldMask),
    signExtend (key &&& fieldMask)⟩

end Karst.CubeKey
