/-!
Generation stops at the first arithmetic result that leaves its word, at a division by zero, at an
access outside an array and at a broken assertion. A `Guarded` value is either the result or the
reason for stopping; `Checked` holds the arithmetic.
-/

namespace Karst

inductive Fault where
  | overflow
  | divideByZero
  | indexOutOfBounds
  | assertionFailed
deriving DecidableEq, Repr

def Fault.message : Fault → String
  | .overflow => "arithmetic overflow"
  | .divideByZero => "division by zero"
  | .indexOutOfBounds => "index out of bounds"
  | .assertionFailed => "assertion failed"

abbrev Guarded (α : Type) := Except Fault α

namespace Checked

def int32 (value : Int) : Guarded Int32 :=
  if -2147483648 ≤ value ∧ value ≤ 2147483647 then .ok (Int32.ofInt value) else .error .overflow

theorem int32_eq_ok_iff (value : Int) (word : Int32) :
    int32 value = .ok word ↔ word.toInt = value := by
  unfold int32
  have lower := word.le_toInt
  have upper := word.toInt_lt
  split
  case isTrue fits =>
    constructor
    · intro same
      injection same with same
      rw [← same, Int32.toInt_ofInt_of_le (by omega) (by omega)]
    · intro same
      rw [← same, Int32.ofInt_toInt]
  case isFalse misfit =>
    constructor
    · intro same
      cases same
    · intro same
      simp [← same] at misfit
      omega

def add (a b : Int32) : Guarded Int32 := int32 (a.toInt + b.toInt)

def sub (a b : Int32) : Guarded Int32 := int32 (a.toInt - b.toInt)

def mul (a b : Int32) : Guarded Int32 := int32 (a.toInt * b.toInt)

def abs (a : Int32) : Guarded Int32 := int32 a.toInt.natAbs

def uint32 (value : Int) : Guarded UInt32 :=
  if 0 ≤ value ∧ value < 4294967296 then .ok (UInt32.ofNat value.toNat) else .error .overflow

theorem uint32_eq_ok_iff (value : Int) (word : UInt32) :
    uint32 value = .ok word ↔ (word.toNat : Int) = value := by
  unfold uint32
  have upper := word.toNat_lt
  split
  case isTrue fits =>
    constructor
    · intro same
      injection same with same
      rw [← same, UInt32.toNat_ofNat_of_lt' (by simp [UInt32.size]; omega)]
      omega
    · intro same
      rw [← same, Int.toNat_natCast, UInt32.ofNat_toNat]
  case isFalse misfit =>
    constructor
    · intro same
      cases same
    · intro same
      omega

def uint64 (value : Nat) : Guarded UInt64 :=
  if value < 18446744073709551616 then .ok (UInt64.ofNat value) else .error .overflow

theorem uint64_eq_ok_iff (value : Nat) (word : UInt64) :
    uint64 value = .ok word ↔ word.toNat = value := by
  unfold uint64
  have upper := word.toNat_lt
  split
  case isTrue fits =>
    constructor
    · intro same
      injection same with same
      rw [← same, UInt64.toNat_ofNat_of_lt' (by simp [UInt64.size]; omega)]
    · intro same
      rw [← same, UInt64.ofNat_toNat]
  case isFalse misfit =>
    constructor
    · intro same
      cases same
    · intro same
      omega

end Checked

def entry {α : Type} (items : Array α) (i : Nat) : Guarded α :=
  match items[i]? with
  | some item => .ok item
  | none => .error .indexOutOfBounds

def quotient (a b : Nat) : Guarded Nat :=
  if b = 0 then .error .divideByZero else .ok (a / b)

end Karst
