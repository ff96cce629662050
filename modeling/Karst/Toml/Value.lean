import Karst.Toml.Moment
import Karst.Toml.Quoted
import Karst.Toml.Table

namespace Karst.Toml

open Reader

def maxDepth : Nat := 79

def isBare (c : Char) : Bool := c.isAlphanum || c == '_' || c == '-'

def simpleKey : Reader String := quoted <|> (String.ofList <$> run1 isBare)

def key : Reader (List String) := do
  let parts ← separated (blank *> simpleKey <* blank) (skip '.')
  if parts.length ≤ maxDepth then return parts else failure

def boolean : Reader Data :=
  (do lexeme "true"; return .boolean true) <|> (do lexeme "false"; return .boolean false)

def scalar : Reader Data := (.text <$> string) <|> boolean <|> moment <|> float <|> integer

def array (value : Reader Data) : Reader Data := do
  skip '['
  let items ← optional do
    let items ← separated (padding *> value <* padding) (skip ',')
    let _ ← optional (skip ',')
    return items
  padding
  skip ']'
  return .list (items.getD [])

def assignment (value : Reader Data) : Reader Assignment := do
  let path ← key
  skip '='
  blank
  return ⟨path, ← value⟩

def inlineTable (value : Reader Data) : Reader Data := do
  skip '\x7b'
  let assignments ← optional (separated (assignment value <* blank) (skip ','))
  blank
  skip '\x7d'
  let entries ← liftM (Entries.assignAll (assignments.getD []) [])
  return entries.toData

def value : Nat → Reader Data
  | 0 => scalar
  | depth + 1 => scalar <|> array (value depth) <|> inlineTable (value depth)

end Karst.Toml
