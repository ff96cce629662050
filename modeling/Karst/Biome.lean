import Karst.Block
import Karst.Geometry.Coord

namespace Karst

inductive BiomeKind where
  | plains
  | forest
  | desert
  | beach
  | ocean
  | mountains
  | swamp
  | mushroomIsland
  | mushroomIslandShore
  | other (code : UInt16)
deriving DecidableEq, Repr, Inhabited

structure Biome where
  kind : BiomeKind
  top : Block
  filler : Block
deriving DecidableEq, Repr, Inhabited

abbrev BiomeSource := BlockPos → Biome

namespace BiomeKind

def named : List (String × BiomeKind) :=
  [("plains", plains), ("forest", forest), ("desert", desert), ("beach", beach), ("ocean", ocean),
    ("mountains", mountains), ("swamp", swamp), ("mushroom_island", mushroomIsland),
    ("mushroom_island_shore", mushroomIslandShore)]

def ofName (name : String) : Decoded BiomeKind :=
  match named.lookup name with
  | some kind => .ok kind
  | none => .error .mismatch

def ofData : Data → Decoded BiomeKind
  | .text name => ofName name
  | .table [("other", code)] => return .other (← code.toUInt16)
  | .table [(name, .null)] => ofName name
  | _ => .error .mismatch

def toData (kind : BiomeKind) : Data :=
  match kind, named.find? (·.2 == kind) with
  | .other code, _ => .table [("other", .integer code.toNat)]
  | _, some (name, _) => .text name
  | _, none => .null

end BiomeKind

namespace Biome

def plains : Biome := ⟨.plains, .grass, .dirt⟩
def desert : Biome := ⟨.desert, .sand, .sandstone⟩
def beach : Biome := ⟨.beach, .sand, .sand⟩
def ocean : Biome := ⟨.ocean, .gravel, .gravel⟩
def mushroomIsland : Biome := ⟨.mushroomIsland, .mycelium, .dirt⟩

/-- The surface and filler blocks that carving treats as the ground; sand and mycelium covers are
carved as grass over dirt. -/
def carveSurface (b : Biome) : Block × Block :=
  match b.kind with
  | .beach | .desert | .mushroomIsland | .mushroomIslandShore => (.grass, .dirt)
  | _ => (b.top, b.filler)

structure Fields where
  kind : Option BiomeKind := none
  top : Option Block := none
  filler : Option Block := none

def Fields.set (name : String) (data : Data) (fields : Fields) : Decoded Fields :=
  match name with
  | "kind" => return { fields with kind := some (← BiomeKind.ofData data) }
  | "top" => return { fields with top := some (← Block.ofData data) }
  | "filler" => return { fields with filler := some (← Block.ofData data) }
  | _ => .ok fields

def overfull : Data → Bool
  | .list (_ :: _ :: _ :: _ :: _) => true
  | _ => false

def ofData (data : Data) : Decoded Biome := do
  let fields ← data.toRecord ["kind", "top", "filler"] Fields.set {}
  match fields, overfull data with
  | ⟨some kind, some top, some filler⟩, false => return ⟨kind, top, filler⟩
  | _, _ => throw .mismatch

def toData (b : Biome) : Data :=
  .table [("kind", b.kind.toData), ("top", b.top.toData), ("filler", b.filler.toData)]

end Biome

end Karst
