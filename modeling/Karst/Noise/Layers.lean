import Karst.Noise.Gradient
import Karst.Hash

namespace Karst

structure NoiseLayer where
  name : String
  salt : Int32
  frequency : Float32
  octaves : UInt32
  span : Nat
deriving Inhabited

namespace NoiseLayer

def lattice (l : NoiseLayer) : Nat := cubeSize / max l.span 1 + 1

def samples (l : NoiseLayer) : Nat := l.lattice * l.lattice * l.lattice

def fingerprint (l : NoiseLayer) (h : UInt64) : UInt64 :=
  let h := mix64 (h ^^^ l.salt.toUInt32.toUInt64)
  let h := mix64 (h ^^^ l.frequency.toBits.toUInt64)
  let h := mix64 (h ^^^ l.octaves.toUInt64)
  mix64 (h ^^^ UInt64.ofNat l.span)

/-- Sums octaves from one on: each has half the amplitude and twice the frequency of the last. -/
def octaveSum (l : NoiseLayer) (seed : Int32) (x y z : Float32) :
    Nat → (amplitude frequency sum reach : Float32) → Float32
  | 0, _, _, sum, reach => if reach > 0 then sum / reach else sum
  | octaves + 1, amplitude, frequency, sum, reach =>
      let value := Gradient.noise seed l.frequency (x * frequency) (y * frequency) (z * frequency)
      octaveSum l seed x y z octaves (amplitude * 0.5) (frequency * 2) (sum + value * amplitude)
        (reach + amplitude)

def sample (l : NoiseLayer) (seed : Int32) (x y z : Float) : Float :=
  (l.octaveSum seed x.toFloat32 y.toFloat32 z.toFloat32 (max l.octaves.toNat 1) 1 1 0 0).toFloat

end NoiseLayer

structure LayerSet where
  world : UInt32
  seed : UInt64
  layers : List NoiseLayer
deriving Inhabited

namespace LayerSet

/-- Covers the world, its seed and the numbers of every layer in order, but no name. -/
def fingerprint (set : LayerSet) : UInt64 :=
  set.layers.foldl (fun h l => l.fingerprint h) (mix64 (set.seed ^^^ set.world.toUInt64))

def layer? (set : LayerSet) (i : Nat) : Option NoiseLayer := set.layers[i]?

def layerIndex? (set : LayerSet) (name : String) : Option Nat :=
  set.layers.findIdx? fun l => l.name == name

def gridSize (set : LayerSet) : Nat :=
  set.layers.foldl (fun size l => size + l.samples) 0

def sample (set : LayerSet) (i : Nat) (x y z : Float) : Float :=
  match set.layer? i with
  | some l => l.sample (noiseSeed set.seed l.salt) x y z
  | none => 0

end LayerSet

end Karst
