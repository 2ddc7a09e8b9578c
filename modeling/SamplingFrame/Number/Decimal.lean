import SamplingFrame.Number.Whole

/-!
# Decimal numbers

A decimal number is a coefficient of up to 96 bits, with a sign, divided by a power of ten. The
number of decimal places is kept and shown, but two numbers are compared by value: `1.50` and `1.5`
are equal, and so are zeros of either sign.
-/

namespace SamplingFrame

/-- The number `± coefficient / 10 ^ scale`, written with `scale` decimal places. -/
structure Decimal where
  /-- Whether the sign is minus; zero may have a sign, too. -/
  negative : Bool
  /-- The digits, as one number. -/
  coefficient : Nat
  /-- How many of the digits stand after the point. -/
  scale : Nat
  /-- The digits fit into 96 bits. -/
  coefficient_le : coefficient ≤ 79228162514264337593543950335
  /-- There are at most 28 decimal places. -/
  scale_le : scale ≤ 28
  deriving DecidableEq, Repr

namespace Decimal

open Whole (tenTo)

/-- The largest coefficient, `2 ^ 96 - 1`. -/
def maxCoefficient : Nat := 79228162514264337593543950335

/-- The largest number of decimal places. -/
def maxScale : Nat := 28

/-- The number of given parts, if they are within bounds. -/
def ofParts? (negative : Bool) (coefficient scale : Nat) : Option Decimal :=
  if h : coefficient ≤ maxCoefficient ∧ scale ≤ maxScale then
    some ⟨negative, coefficient, scale, h.1, h.2⟩
  else none

/-- The digits with their sign, as one number. -/
def signed (d : Decimal) : Int := if d.negative then -(d.coefficient : Int) else d.coefficient

/-- Comparison by value. -/
def compare (a b : Decimal) : Ordering :=
  Ord.compare (a.signed * tenTo b.scale) (b.signed * tenTo a.scale)

/-- Every decimal place is written, and a digit always stands before the point. -/
def render (d : Decimal) : List Char :=
  let ds := (Whole.digits d.coefficient).leftpad (d.scale + 1) '0'
  let whole := ds.take (ds.length - d.scale)
  let places := ds.drop (ds.length - d.scale)
  (if d.negative then ['-'] else []) ++ whole ++ (if d.scale = 0 then [] else '.' :: places)

/-- Division of a coefficient by a power of ten, a half going up. -/
def shorten (coefficient places : Nat) : Nat := (coefficient + tenTo places / 2) / tenTo places

/-- Parts within bounds make the number that has them. -/
theorem ofParts?_parts (d : Decimal) : ofParts? d.negative d.coefficient d.scale = some d := by
  simp [ofParts?, maxCoefficient, maxScale, d.coefficient_le, d.scale_le]

/-- Every number is equal to itself. -/
theorem compare_self (d : Decimal) : d.compare d = .eq := by
  simp [compare, Std.ReflCmp.compare_self]

end Decimal

end SamplingFrame
