/-!
# Binary floating point numbers of 64 bits

A number is its bit pattern: a sign, eleven bits of exponent and fifty-two bits of fraction. A
finite one stands for `significand · 2 ^ exponent`. `ofDecimal` rounds a decimal to the nearest of
them, a tie going to the even significand, and overflows to infinity.

All arithmetic is on natural numbers.
-/

namespace Depot.Decimal

/-- A number in the binary interchange format of 64 bits. -/
structure Binary64 where
  bits : UInt64
  deriving DecidableEq, Repr, Inhabited

namespace Binary64

/-- The weight of the sign bit in the bit pattern. -/
def signWeight : Nat := 0x8000000000000000

/-- The weight of the hidden bit, which stands right above the bits of fraction. -/
def hiddenWeight : Nat := 0x10000000000000

/-- The sign bit. -/
def isNegative (x : Binary64) : Bool :=
  signWeight ≤ x.bits.toNat

/-- The eleven bits of exponent. -/
def exponentField (x : Binary64) : Nat :=
  x.bits.toNat / hiddenWeight % 2048

/-- The fifty-two bits of fraction. -/
def fraction (x : Binary64) : Nat :=
  x.bits.toNat % hiddenWeight

/-- Neither infinite nor a NaN. -/
def isFinite (x : Binary64) : Bool :=
  x.exponentField != 2047

/-- A NaN has the greatest exponent and a fraction that is not zero. -/
def isNaN (x : Binary64) : Bool :=
  x.exponentField == 2047 && x.fraction != 0

/-- The integer that is scaled: the fraction, with the hidden bit unless the number is subnormal. -/
def significand (x : Binary64) : Nat :=
  if x.exponentField = 0 then x.fraction else x.fraction + hiddenWeight

/-- The power of two that scales the significand. -/
def exponent (x : Binary64) : Int :=
  (Nat.max x.exponentField 1 : Nat) - 1075

/-- The sign bit as a summand of the bit pattern. -/
private def signBits (negative : Bool) : Nat :=
  if negative then signWeight else 0

/-- Zero of either sign. -/
def zero (negative : Bool) : Binary64 :=
  ⟨UInt64.ofNat (signBits negative)⟩

/-- Infinity of either sign. -/
def infinity (negative : Bool) : Binary64 :=
  ⟨UInt64.ofNat (signBits negative + 2047 * hiddenWeight)⟩

/-- The quiet NaN without a sign. -/
def nan : Binary64 :=
  ⟨UInt64.ofNat (2047 * hiddenWeight + hiddenWeight / 2)⟩

/-- A quotient rounded to the nearest integer, a tie to the even one. -/
def roundQuotient (num den : Nat) : Nat :=
  let q := num / den
  let twice := 2 * (num % den)
  if twice < den then q
  else if den < twice then q + 1
  else if q % 2 = 0 then q else q + 1

/-- The number nearest to the positive quotient `num / den`. The exponent is the one that leaves
fifty-three bits before the point, but no smaller than that of a subnormal number. -/
def ofQuotient (negative : Bool) (num den : Nat) : Binary64 :=
  let guess : Int := max ((Nat.log2 num : Int) - Nat.log2 den - 53) (-1074)
  let scaled (e : Int) : Nat × Nat :=
    if 0 ≤ e then (num, den * Nat.pow 2 e.toNat) else (num * Nat.pow 2 (-e).toNat, den)
  let fits := (scaled guess).1 / (scaled guess).2 < 2 * hiddenWeight
  let e := if fits then guess else guess + 1
  let q := roundQuotient (scaled e).1 (scaled e).2
  let magnitude := (e + 1074).toNat * hiddenWeight + q
  if magnitude < 2047 * hiddenWeight then ⟨UInt64.ofNat (signBits negative + magnitude)⟩
  else infinity negative

/-- The number of decimal digits, none for zero. -/
def digitCount (n : Nat) : Nat :=
  if n = 0 then 0 else (Nat.toDigits 10 n).length

/-- The number nearest to `digits · 10 ^ exponent10`. Magnitudes far outside the range are settled
by the number of digits alone. -/
def ofDecimal (negative : Bool) (digits : Nat) (exponent10 : Int) : Binary64 :=
  let magnitude : Int := digitCount digits + exponent10
  if digits = 0 ∨ magnitude < -330 then zero negative
  else if 330 < magnitude then infinity negative
  else if 0 ≤ exponent10 then ofQuotient negative (digits * Nat.pow 10 exponent10.toNat) 1
  else ofQuotient negative digits (Nat.pow 10 (-exponent10).toNat)

end Binary64

end Depot.Decimal
