import Karst.Data
import Karst.Text.Binary64
import Karst.Text.Decimal
import Karst.Toml.Quoted

/-!
Numbers: decimal integers with a sign, unsigned ones to base sixteen, eight and two, and floats.
Single underscores may stand between digits. An integer that needs more than 64 bits is refused. A
float beyond the finite ones is refused if it is positive, and is negative infinity otherwise.
-/

namespace Karst.Toml

open Reader

def moreDigits (isDigit : Char → Bool) : List Char → List Char × List Char
  | '_' :: c :: rest =>
      if isDigit c then
        let (digits, rest) := moreDigits isDigit rest
        (c :: digits, rest)
      else ([], '_' :: c :: rest)
  | c :: rest =>
      if isDigit c then
        let (digits, rest) := moreDigits isDigit rest
        (c :: digits, rest)
      else ([], c :: rest)
  | [] => ([], [])

def digits (isDigit : Char → Bool) : Reader (List Char) := do
  let first ← char isDigit
  return first :: (← fun text => some (moreDigits isDigit text))

def isDecimal (c : Char) : Bool := (Decimal.digit? c).isSome

def valueOf (base : Nat) (digits : List Char) : Nat :=
  digits.foldl (fun n c => base * n + (hexDigit? c).getD 0) 0

def sign : Reader Bool := (do skip '-'; return true) <|> (do skip '+'; return false) <|> pure false

def wholePart : Reader (List Char) := (do skip '0'; return ['0']) <|> digits isDecimal

def word (value : Int) : Reader Data :=
  if -9223372036854775808 ≤ value ∧ value ≤ 9223372036854775807 then return .integer value
  else failure

def based (mark : String) (base : Nat) : Reader Data := do
  lexeme mark
  let written ← digits fun c => (hexDigit? c).any (· < base)
  word (valueOf base written)

def decimalInteger : Reader Data := do
  let negative ← sign
  let magnitude : Int := valueOf 10 (← wholePart)
  word (if negative then -magnitude else magnitude)

def integer : Reader Data := based "0x" 16 <|> based "0o" 8 <|> based "0b" 2 <|> decimalInteger

def fraction : Reader (List Char) := skip '.' *> digits isDecimal

def exponent : Reader Int := do
  let _ ← char fun c => c == 'e' || c == 'E'
  let negative ← sign
  let magnitude : Int := valueOf 10 (← digits isDecimal)
  return if negative then -magnitude else magnitude

def scale : Reader (List Char × Int) :=
  (do
    let places ← fraction
    return (places, (← optional exponent).getD 0))
  <|> (do return ([], ← exponent))

def signed (negative : Bool) (magnitude : Float) : Float :=
  if negative then -magnitude else magnitude

def finiteFloat : Reader Data := do
  let negative ← sign
  let whole ← wholePart
  let (places, power) ← scale
  let value := signed negative
    (Binary64.ofDecimal (valueOf 10 (whole ++ places)) (power - places.length))
  if value.isInf ∧ 0 < value then failure else return .real value

def specialFloat : Reader Data := do
  let negative ← sign
  let magnitude ← (do lexeme "inf"; return 1.0 / 0.0) <|> (do lexeme "nan"; return 0.0 / 0.0)
  return .real (signed negative magnitude)

def float : Reader Data := finiteFloat <|> specialFloat

end Karst.Toml
