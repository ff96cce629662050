import Karst.Fault
import Karst.Block

namespace Karst

structure Palette where
  entries : Array Block := #[]

namespace Palette

def capacity : Nat := 256

inductive Insertion where
  | existing (index : UInt8)
  | added (index : UInt8)
  | full
deriving DecidableEq, Repr

def singleton (b : Block) : Palette := ⟨#[b]⟩

def size (p : Palette) : Nat := p.entries.size

def get (p : Palette) (index : UInt8) : Guarded Block := entry p.entries index.toNat

def insert (p : Palette) (b : Block) : Insertion × Palette :=
  match p.entries.idxOf? b with
  | some i => (.existing (UInt8.ofNat i), p)
  | none =>
      if capacity ≤ p.entries.size then (.full, p)
      else (.added (UInt8.ofNat p.entries.size), ⟨p.entries.push b⟩)

end Palette

end Karst
