
namespace Karst.Decimal

def digit? (c : Char) : Option Nat :=
  if '0' ≤ c ∧ c ≤ '9' then some (c.toNat - '0'.toNat) else none

def extend (value : Nat) : List Char → Option Nat
  | [] => some value
  | c :: rest =>
      match digit? c with
      | some d => extend (10 * value + d) rest
      | none => none

def natural? : List Char → Option Nat
  | [] => none
  | digits => extend 0 digits

def unsigned? (upper : Nat) (numeral : List Char) : Option Nat :=
  let value := match numeral with
    | '+' :: digits => natural? digits
    | digits => natural? digits
  value.filter (· ≤ upper)

def signed? (lower upper : Int) (numeral : List Char) : Option Int :=
  let value : Option Int := match numeral with
    | '+' :: digits => (natural? digits).map Int.ofNat
    | '-' :: digits => (natural? digits).map fun n => -Int.ofNat n
    | digits => (natural? digits).map Int.ofNat
  value.filter fun n => lower ≤ n ∧ n ≤ upper

end Karst.Decimal
