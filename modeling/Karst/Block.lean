import Karst.Data
import Karst.Text.Decimal

namespace Karst

structure Block where
  id : UInt16
  state : UInt16 := 0
deriving DecidableEq, Repr, Inhabited

namespace Block

def air : Block := ⟨0, 0⟩
def stone : Block := ⟨1, 0⟩
def grass : Block := ⟨2, 0⟩
def dirt : Block := ⟨3, 0⟩
def bedrock : Block := ⟨7, 0⟩
def water : Block := ⟨9, 0⟩
def lava : Block := ⟨11, 0⟩
def sand : Block := ⟨12, 0⟩
def gravel : Block := ⟨13, 0⟩
def sandstone : Block := ⟨24, 0⟩
def mycelium : Block := ⟨110, 0⟩

def isAir (b : Block) : Bool := b.id == air.id

/-- Water at rest; flowing water is not. -/
def isStillWater (b : Block) : Bool := b.id == water.id

def isFluid (b : Block) : Bool := 8 ≤ b.id && b.id ≤ 11

def catalogue : List (String × UInt16) :=
  [("air", 0), ("stone", 1), ("grass", 2), ("dirt", 3), ("bedrock", 7), ("flowing_water", 8),
    ("water", 9), ("flowing_lava", 10), ("lava", 11), ("sand", 12), ("gravel", 13),
    ("sandstone", 24), ("mycelium", 110)]

def name? (b : Block) : Option String :=
  (catalogue.find? fun entry => entry.2 == b.id).map Prod.fst

def idOfName? (name : String) : Option UInt16 :=
  (catalogue.find? fun entry => entry.1 == name).map Prod.snd

/-- Reads a catalogue name, or one followed by a colon and a decimal state. -/
def ofName? (text : String) : Option Block :=
  let (base, suffix) := text.toList.span (· != ':')
  match suffix with
  | [] => (idOfName? text).map fun id => ⟨id, 0⟩
  | _ :: numeral => do
      let state ← Decimal.unsigned? 65535 numeral
      let id ← idOfName? (String.ofList base)
      return ⟨id, UInt16.ofNat state⟩

def toData (b : Block) : Data :=
  match b.name? with
  | some name =>
      if b.state = 0 then .text name else .text (name ++ ":" ++ toString b.state.toNat)
  | none => .integer b.id.toNat

def ofData : Data → Decoded Block
  | .integer value => return ⟨← (Data.integer value).toUInt16, 0⟩
  | .text name =>
      match ofName? name with
      | some block => .ok block
      | none => .error (.unknownBlock name)
  | _ => .error .mismatch

end Block

end Karst
