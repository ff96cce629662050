import Karst.Geometry.Coord

namespace Karst

def mix64 (z : UInt64) : UInt64 :=
  let z := (z ^^^ (z >>> 30)) * 0xbf58476d1ce4e5b9
  let z := (z ^^^ (z >>> 27)) * 0x94d049bb133111eb
  z ^^^ (z >>> 31)

def goldenRatio64 : UInt64 := 0x9e3779b97f4a7c15

def coordHash (seed : UInt64) (c : CubeCoord) : UInt64 :=
  let h := mix64 ((seed ^^^ goldenRatio64) ^^^ (c.x.toUInt32.toUInt64 * 0x85ebca6b))
  let h := mix64 (h ^^^ (c.y.toUInt32.toUInt64 * 0xc2b2ae35))
  mix64 (h ^^^ (c.z.toUInt32.toUInt64 * 0x27d4eb2f))

def deriveSeed (seed salt : UInt64) : UInt64 := mix64 (seed ^^^ mix64 (salt + goldenRatio64))

def noiseSeed (seed : UInt64) (salt : Int32) : Int32 :=
  (deriveSeed seed salt.toUInt32.toUInt64).toUInt32.toInt32

namespace Fnv

def start : UInt64 := 0xcbf29ce484222325

def prime : UInt64 := 0x100000001b3

def byte (h : UInt64) (b : UInt8) : UInt64 := (h ^^^ b.toUInt64) * prime

def word16 (h : UInt64) (w : UInt16) : UInt64 := byte (byte h w.toUInt8) (w >>> 8).toUInt8

def wordBytes (h w : UInt64) : Nat → UInt64
  | 0 => h
  | count + 1 => wordBytes (byte h w.toUInt8) (w >>> 8) count

def word64 (h w : UInt64) : UInt64 := wordBytes h w 8

end Fnv

end Karst
