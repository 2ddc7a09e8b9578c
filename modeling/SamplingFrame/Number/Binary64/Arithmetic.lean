import SamplingFrame.Number.Binary64

/-!
# Arithmetic of binary floating point numbers

Products, quotients and powers of ten. Each operation is exact up to one rounding of its result to
the nearest number.
-/

namespace SamplingFrame.Binary64

/-- The magnitude of a number, as a fraction. -/
def fraction (x : Binary64) : Nat × Nat := scaleBy 2 x.significand 1 x.exponent

/-- The nearest number to a product; none if that is past the largest number. -/
def mul? (x y : Binary64) : Option Binary64 :=
  ofFraction? (x.negative != y.negative) (x.fraction.1 * y.fraction.1)
    (x.fraction.2 * y.fraction.2)

/-- The nearest number to a quotient; none if that is past the largest number, as it is for a
divisor of zero. -/
def div? (x y : Binary64) : Option Binary64 :=
  if y.significand = 0 then none
  else
    ofFraction? (x.negative != y.negative) (x.fraction.1 * y.fraction.2)
      (x.fraction.2 * y.fraction.1)

/-- The nearest number to a whole number; none if that is past the largest number. -/
def ofNat? (n : Nat) : Option Binary64 := ofFraction? false n 1

/-- The greatest power of ten that is not past the largest number. -/
def maxPower : Nat := 308

/-- The nearest number to a power of ten. -/
def powerOfTen? (n : Nat) : Option Binary64 := if n ≤ maxPower then ofNat? (Whole.tenTo n) else none

/-- Multiplies by a power of ten. Zero stays zero, however great the power. -/
def raise? (x : Binary64) (n : Nat) : Option Binary64 :=
  if x.significand = 0 then some x else powerOfTen? n >>= x.mul?

/-- Divides by the greatest power of ten, again and again until nothing is left. -/
def lowerFar? (x : Binary64) : Nat → Option Binary64
  | 0 => some x
  | n + 1 =>
    if x.significand = 0 then some x
    else do lowerFar? (← x.div? (← powerOfTen? maxPower)) n

/-- Divides by a power of ten: by the greatest one as long as more than that is left to divide by,
and then by the rest. Each division rounds. -/
def lower? (x : Binary64) (n : Nat) : Option Binary64 := do
  let far := (n - 1) / maxPower
  (← x.lowerFar? far).div? (← powerOfTen? (n - far * maxPower))

end SamplingFrame.Binary64
