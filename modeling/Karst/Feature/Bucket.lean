import Karst.Fault
import Karst.Block
import Karst.Cache.Pool
import Karst.Geometry.Coord

/-!
The pending writes of one feature inside one cube: the first write to each position, in order, with
a bitmap of the positions taken and the smallest box around them.
-/

namespace Karst

structure VoxelOp where
  x : UInt8
  y : UInt8
  z : UInt8
  block : Block
deriving DecidableEq, Repr, Inhabited

def VoxelOp.pos (op : VoxelOp) : LocalPos := ⟨op.x.toNat, op.y.toNat, op.z.toNat⟩

structure Corner where
  x : UInt8
  y : UInt8
  z : UInt8
deriving DecidableEq, Repr

def Corner.pos (c : Corner) : LocalPos := ⟨c.x.toNat, c.y.toNat, c.z.toNat⟩

/-- For a position that was taken, the bit of its index is set, in words of 64 bits. -/
structure OpBucket where
  words : Array UInt64
  ops : Array VoxelOp
  lower : Corner
  upper : Corner

namespace OpBucket

def wordBits : Nat := 64

def wordCount : Nat := cubeVolume / wordBits

def empty : OpBucket := ⟨Array.replicate wordCount 0, #[], ⟨255, 255, 255⟩, ⟨0, 0, 0⟩⟩

instance : Inhabited OpBucket := ⟨empty⟩

def size (b : OpBucket) : Nat := b.ops.size

def isEmpty (b : OpBucket) : Bool := b.ops.isEmpty

def mask (p : LocalPos) : UInt64 := 1 <<< UInt64.ofNat (p.index % wordBits)

def isTaken (b : OpBucket) (p : LocalPos) : Bool :=
  b.words.getD (p.index / wordBits) 0 &&& mask p != 0

def contains (b : OpBucket) (p : LocalPos) : Guarded Bool := do
  return (← entry b.words (p.index / wordBits)) &&& mask p != 0

def push (b : OpBucket) (p : LocalPos) (block : Block) : OpBucket :=
  match b with
  | ⟨words, ops, lower, upper⟩ =>
      let x := UInt8.ofNat p.x
      let y := UInt8.ofNat p.y
      let z := UInt8.ofNat p.z
      ⟨words.modify (p.index / wordBits) fun word => word ||| mask p,
        ops.push ⟨x, y, z, block⟩,
        ⟨min lower.x x, min lower.y y, min lower.z z⟩,
        ⟨max upper.x x, max upper.y y, max upper.z z⟩⟩

/-- Records a write; answers false, and changes nothing, if the position was taken. -/
def record (b : OpBucket) (p : LocalPos) (block : Block) : Guarded (Bool × OpBucket) :=
  if p.Inside then
    if b.isTaken p then .ok (false, b) else .ok (true, b.push p block)
  else .error .assertionFailed

def localBounds (b : OpBucket) : Option (LocalPos × LocalPos) :=
  if b.ops.isEmpty then none else some (b.lower.pos, b.upper.pos)

/-- An empty bucket again; the bitmap is wiped only if something was recorded. -/
def recycle (b : OpBucket) : OpBucket :=
  { empty with words := if b.ops.isEmpty then b.words else empty.words }

instance : Recyclable OpBucket where
  fresh := empty
  recycle := recycle

end OpBucket

end Karst
