import Karst.Cube.Palette
import Karst.Hash

/-!
The blocks of one cube. A cube starts as one block throughout, numbers its blocks by a palette once
a second one is written, and spells every block out when the palette is full.
-/

namespace Karst

inductive Storage where
  | uniform (block : Block)
  | indexed (palette : Palette) (indices : Array UInt8)
  | dense (blocks : Array Block)

inductive StorageKind where
  | uniform
  | palette (size : Nat)
  | dense
deriving DecidableEq, Repr

structure Cube where
  coord : CubeCoord
  storage : Storage

namespace Cube

def filled (coord : CubeCoord) (b : Block) : Cube := ⟨coord, .uniform b⟩

def empty (coord : CubeCoord) : Cube := filled coord .air

def getIndex (c : Cube) (i : Nat) : Guarded Block :=
  match c.storage with
  | .uniform b => .ok b
  | .indexed palette indices => do palette.get (← entry indices i)
  | .dense blocks => entry blocks i

def writeAt {α : Type} (items : Array α) (i : Nat) (item : α) : Guarded (Array α) :=
  if i < items.size then .ok (items.setIfInBounds i item) else .error .indexOutOfBounds

/-- Writing the block that fills a uniform cube changes nothing, at any index. -/
def setIndex (c : Cube) (i : Nat) (b : Block) : Guarded Cube :=
  match c with
  | ⟨coord, .uniform fill⟩ =>
      if fill = b then .ok ⟨coord, .uniform fill⟩
      else
        match (Palette.singleton fill).insert b with
        | (.added p, palette) => do
            let indices ← writeAt (Array.replicate cubeVolume 0) i p
            return ⟨coord, .indexed palette indices⟩
        | (_, palette) => .ok ⟨coord, .indexed palette (Array.replicate cubeVolume 0)⟩
  | ⟨coord, .indexed palette indices⟩ =>
      match palette.insert b with
      | (.existing p, palette) => do return ⟨coord, .indexed palette (← writeAt indices i p)⟩
      | (.added p, palette) => do return ⟨coord, .indexed palette (← writeAt indices i p)⟩
      | (.full, palette) => do
          let blocks ← indices.mapM palette.get
          return ⟨coord, .dense (← writeAt blocks i b)⟩
  | ⟨coord, .dense blocks⟩ => do return ⟨coord, .dense (← writeAt blocks i b)⟩

def get (c : Cube) (p : LocalPos) : Guarded Block := c.getIndex p.index

def set (c : Cube) (p : LocalPos) (b : Block) : Guarded Cube := c.setIndex p.index b

def ofBlocks (coord : CubeCoord) (blocks : List Block) : Guarded Cube :=
  (blocks.take cubeVolume).zipIdx.foldlM (fun c (b, i) => c.setIndex i b) (empty coord)

def kind (c : Cube) : StorageKind :=
  match c.storage with
  | .uniform _ => .uniform
  | .indexed palette _ => .palette palette.size
  | .dense _ => .dense

def containsWorld (c : Cube) (p : BlockPos) : Bool := CubeCoord.ofBlock p == c.coord

def getWorld (c : Cube) (p : BlockPos) : Guarded (Option Block) := do
  if c.containsWorld p then
    let corner ← c.coord.minBlock
    let block ← c.get (← p.relativeTo corner)
    return some block
  else
    return none

def toArray (c : Cube) : Array Block :=
  match c.storage with
  | .uniform b => Array.replicate cubeVolume b
  | .indexed palette indices => indices.map fun p => palette.entries.getD p.toNat .air
  | .dense blocks => blocks

def count (c : Cube) (keep : Block → Bool) : Nat :=
  match c.storage with
  | .uniform b => if keep b then cubeVolume else 0
  | _ => c.toArray.countP keep

def checksum (c : Cube) : UInt64 :=
  c.toArray.foldl (fun h b => Fnv.word16 (Fnv.word16 h b.id) b.state) Fnv.start

end Cube

end Karst
