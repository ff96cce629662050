/-!
The double nearest to a decimal number, ties to the even neighbour. All arithmetic is on natural
numbers; only the finished bit pattern becomes a `Float`.
-/

namespace Karst.Binary64

/-- A quotient rounded to the nearest natural number, a half to the even one. -/
def roundQuotient (numerator denominator : Nat) : Nat :=
  let whole := numerator / denominator
  let doubled := 2 * (numerator % denominator)
  if denominator < doubled ∨ (doubled = denominator ∧ whole % 2 = 1) then whole + 1 else whole

def infinite : Nat := 2047 <<< 52

/-- A multiple of the power of two that `shift` stands for: of `2 ^ (shift - 1074)`. -/
def scaled (numerator denominator shift : Nat) : Nat :=
  if shift ≤ 1074 then roundQuotient (numerator <<< (1074 - shift)) denominator
  else roundQuotient numerator (denominator <<< (shift - 1074))

/-- The least `shift` at which a quotient is below `2 ^ 53` multiples. -/
def shiftFor (numerator denominator : Nat) : Nat :=
  let estimate := numerator.log2 + 1074 - (denominator.log2 + 53)
  let tooFine :=
    if estimate ≤ 1074 then denominator <<< 53 ≤ numerator <<< (1074 - estimate)
    else denominator <<< (53 + (estimate - 1074)) ≤ numerator
  if tooFine then estimate + 1 else estimate

/-- The bits of the nearest double of a positive quotient. A significand that rounds up to the next
power of two carries into the exponent. -/
def bitsOfQuotient (numerator denominator : Nat) : Nat :=
  let shift := shiftFor numerator denominator
  min infinite ((shift <<< 52) + scaled numerator denominator shift)

/-- The double nearest to `mantissa * 10 ^ exponent`. A value with its first digit far outside the
range of doubles is settled without forming the power. -/
def ofDecimal (mantissa : Nat) (exponent : Int) : Float :=
  let leading := exponent + (Nat.toDigits 10 mantissa).length
  if mantissa = 0 ∨ leading < -400 then 0
  else if 400 < leading then Float.ofBits (UInt64.ofNat infinite)
  else if 0 ≤ exponent then
    Float.ofBits (UInt64.ofNat (bitsOfQuotient (mantissa * Nat.pow 10 exponent.toNat) 1))
  else
    Float.ofBits (UInt64.ofNat (bitsOfQuotient mantissa (Nat.pow 10 (-exponent).toNat)))

end Karst.Binary64
