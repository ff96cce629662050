
namespace Karst

inductive Data where
  | null
  | boolean (value : Bool)
  | integer (value : Int)
  | real (value : Float)
  | text (value : String)
  /-- A date, a time of day or both; no setting is one. -/
  | moment
  | list (items : List Data)
  | table (entries : List (String × Data))
deriving Inhabited

inductive DecodeError where
  | mismatch
  | unknownBlock (name : String)
deriving DecidableEq, Repr

def DecodeError.detail? : DecodeError → Option String
  | .mismatch => none
  | .unknownBlock name => some ("unknown block '" ++ name ++ "'")

abbrev Decoded (α : Type) := Except DecodeError α

namespace Data

def toBoolean : Data → Decoded Bool
  | .boolean value => .ok value
  | _ => .error .mismatch

def toText : Data → Decoded String
  | .text value => .ok value
  | _ => .error .mismatch

def toInteger (lower upper : Int) : Data → Decoded Int
  | .integer value => if lower ≤ value ∧ value ≤ upper then .ok value else .error .mismatch
  | _ => .error .mismatch

def toInt32 (data : Data) : Decoded Int32 :=
  return Int32.ofInt (← data.toInteger (-2147483648) 2147483647)

def toUInt16 (data : Data) : Decoded UInt16 :=
  return UInt16.ofNat (← data.toInteger 0 65535).toNat

def toUInt32 (data : Data) : Decoded UInt32 :=
  return UInt32.ofNat (← data.toInteger 0 4294967295).toNat

def toCount (data : Data) : Decoded Nat :=
  return (← data.toInteger 0 18446744073709551615).toNat

/-- A whole number stands for a real one, not the reverse. -/
def toReal : Data → Decoded Float
  | .integer value => .ok (Int64.ofInt value).toFloat
  | .real value => .ok value
  | _ => .error .mismatch

/-- Rounded once, from the number as written. -/
def toReal32 : Data → Decoded Float32
  | .integer value => .ok (Int64.ofInt value).toFloat32
  | .real value => .ok value.toFloat32
  | _ => .error .mismatch

def toList {α : Type} (decode : Data → Decoded α) : Data → Decoded (List α)
  | .list items => items.mapM decode
  | _ => .error .mismatch

/-- Reads a record whose fields are `names` in order: as a table, in the order of its entries and
ignoring those with other names; or as a list of the leading fields. A moment is a table without
any field of the record. -/
def toRecord {α : Type} (names : List String) (field : String → Data → α → Decoded α) (record : α) :
    Data → Decoded α
  | .table entries => entries.foldlM (fun record (name, data) => field name data record) record
  | .list items =>
      (names.zip items).foldlM (fun record (name, data) => field name data record) record
  | .moment => .ok record
  | _ => .error .mismatch

end Data

end Karst
