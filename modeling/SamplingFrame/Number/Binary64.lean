import SamplingFrame.Number.Whole

/-!
# Binary floating point numbers of 64 bits

A finite binary64 number as an exact pair of integers, the nearest such number to a decimal
fraction, and the shortest decimal fraction that is nearest to no other such number. All arithmetic
is exact.
-/

namespace SamplingFrame

/-- The number `± significand * 2 ^ exponent`. -/
structure Binary64 where
  /-- Whether the sign is minus; zero has a sign, too. -/
  negative : Bool
  /-- The significant bits, below `2 ^ 53`. -/
  significand : Nat
  /-- The power of two that they are multiplied with. -/
  exponent : Int
  deriving DecidableEq, Repr

namespace Binary64

open Whole (twoTo tenTo)

/-- The exponent of the smallest numbers. -/
def minExponent : Int := -1074

/-- The exponent of the largest numbers. -/
def maxExponent : Int := 971

/-- The fraction `num / den` times a power of `base`, as a fraction. -/
def scaleBy (base : Nat) (num den : Nat) (power : Int) : Nat × Nat :=
  if power < 0 then (num, den * Nat.pow base power.natAbs)
  else (num * Nat.pow base power.natAbs, den)

/-- The nearest whole number to a fraction; a half goes to the even neighbour. -/
def roundHalfEven (num den : Nat) : Nat :=
  let q := num / den
  let r := num % den
  if den < 2 * r then q + 1
  else if 2 * r = den then q + q % 2
  else q

/-- The greatest `e` with `2 ^ e ≤ num / den`, for a positive fraction. -/
def log2Fraction (num den : Nat) : Int :=
  let e : Int := (Nat.log2 num : Int) - Nat.log2 den
  let (n, d) := scaleBy 2 num den (-e)
  if n < d then e - 1 else e

/-- The nearest number to `num / den`, ties going to the even significand; none if the fraction
rounds past the largest number. -/
def ofFraction? (negative : Bool) (num den : Nat) : Option Binary64 :=
  if num = 0 then some ⟨negative, 0, minExponent⟩
  else
    let exponent := max (log2Fraction num den - 52) minExponent
    let (n, d) := scaleBy 2 num den (-exponent)
    let significand := roundHalfEven n d
    let (significand, exponent) :=
      if significand = twoTo 53 then (twoTo 52, exponent + 1) else (significand, exponent)
    if maxExponent < exponent then none else some ⟨negative, significand, exponent⟩

/-- The nearest number to `digits * 10 ^ power`; none if that rounds past the largest number.
Powers far outside the range are settled by the count of digits alone. -/
def ofDecimal? (negative : Bool) (digits : Nat) (power : Int) : Option Binary64 :=
  let first := power + (Whole.digits digits).length
  if digits = 0 || first < -400 then some ⟨negative, 0, minExponent⟩
  else if 400 < first then none
  else
    let (n, d) := scaleBy 10 digits 1 power
    ofFraction? negative n d

/-- A decimal fraction `digits * 10 ^ power`. -/
structure Digits where
  /-- The significant digits, as one number. -/
  digits : Nat
  /-- The power of ten that they are multiplied with. -/
  power : Int
  deriving DecidableEq, Repr

/-- The fractions that round to a number: their bounds, with the number itself between them, over
one denominator, and whether the bounds belong to them. -/
structure Interval where
  low : Nat
  value : Nat
  high : Nat
  den : Nat
  closed : Bool

/-- The interval of a positive number: half way to either neighbour. The lower neighbour is half as
far away where the exponent changes. Bounds belong to the number of even significand. -/
def interval (x : Binary64) : Interval :=
  let m := x.significand
  let below := if m = twoTo 52 && minExponent < x.exponent then 1 else 2
  let (unit, den) := scaleBy 2 1 1 (x.exponent - 2)
  { low := (4 * m - below) * unit, value := 4 * m * unit, high := (4 * m + 2) * unit, den
    closed := m % 2 == 0 }

/-- Whether `digits * unit / den` lies in the interval. -/
def Interval.holds (i : Interval) (digits unit : Nat) : Bool :=
  if i.closed then i.low ≤ digits * unit && digits * unit ≤ i.high
  else i.low < digits * unit && digits * unit < i.high

/-- The greatest `e` with `10 ^ e ≤ num / den`, for a positive fraction. -/
def log10Fraction (num den : Nat) : Int :=
  if den ≤ num then ((Whole.digits (num / den)).length : Int) - 1
  else
    let j := (Whole.digits (den / num)).length - 1
    if den ≤ num * tenTo j then -(j : Int) else -(j : Int) - 1

/-- The neighbours of the number on the decimal grid of a power of ten: the nearer of those in the
interval, or the nearer of both if `always` asks for one. -/
def onGrid? (i : Interval) (power : Int) (always : Bool) : Option Nat :=
  let lift := if power < 0 then tenTo power.natAbs else 1
  let unit := if power < 0 then i.den else i.den * tenTo power.natAbs
  let j : Interval :=
    { i with low := i.low * lift, value := i.value * lift, high := i.high * lift }
  let floor := j.value / unit
  let rest := j.value % unit
  let nearer :=
    if unit < 2 * rest || (2 * rest == unit && floor % 2 == 1) then floor + 1 else floor
  let farther := if nearer = floor then floor + 1 else floor
  if 0 < nearer && j.holds nearer unit then some nearer
  else if 0 < farther && j.holds farther unit then some farther
  else if always then some nearer
  else none

/-- Tries grids of more and more digits, up to 17. -/
def searchGrids (i : Interval) (first : Int) : Nat → Nat → Digits
  | 0, _ => ⟨0, 0⟩
  | left + 1, count =>
    let power := first - count + 1
    match onGrid? i power (left == 0) with
    | some digits => ⟨digits, power⟩
    | none => searchGrids i first left (count + 1)

/-- Moves trailing zeros into the power. -/
def dropZeros : Nat → Digits → Digits
  | 0, d => d
  | n + 1, d => if d.digits % 10 = 0 then dropZeros n ⟨d.digits / 10, d.power + 1⟩ else d

/-- The fewest digits that read back as the number, and of those the nearest to it. -/
def shortest (x : Binary64) : Digits :=
  if x.significand = 0 then ⟨0, 0⟩
  else
    let i := x.interval
    dropZeros 20 (searchGrids i (log10Fraction i.value i.den) 17 1)

/-- Digits in positional notation: zeros fill up to the point, and a digit always stands before it;
there is no point where nothing stands after it. -/
def renderPlain (d : Digits) : List Char :=
  let ds := Whole.digits d.digits
  if 0 ≤ d.power then ds ++ List.replicate d.power.natAbs '0'
  else
    let ds := ds.leftpad (d.power.natAbs + 1) '0'
    ds.take (ds.length - d.power.natAbs) ++ '.' :: ds.drop (ds.length - d.power.natAbs)

/-- Digits in scientific notation: one digit before the point, and a sign before the exponent. -/
def renderScientific (d : Digits) : List Char :=
  let ds := Whole.digits d.digits
  let exponent := d.power + ds.length - 1
  ds.take 1 ++ (if ds.length = 1 then [] else '.' :: ds.drop 1) ++
    'e' :: (if exponent < 0 then '-' else '+') :: Whole.digits exponent.natAbs

/-- The power of ten of the first digit. -/
def Digits.first (d : Digits) : Int := d.power + (Whole.digits d.digits).length - 1

/-- The sign that is written. -/
def sign (x : Binary64) : List Char := if x.negative then ['-'] else []

/-- The number in positional notation. -/
def renderPositional (x : Binary64) : List Char := x.sign ++ renderPlain x.shortest

/-- The number in the notation of documents: positional for first digits from `10 ^ -5` up to
below `10 ^ 16`, with at least one digit after the point, and scientific outside. -/
def render (x : Binary64) : List Char :=
  let d := x.shortest
  let body :=
    if -5 ≤ d.first && d.first < 16 then
      renderPlain d ++ (if 0 ≤ d.power then ['.', '0'] else [])
    else renderScientific d
  x.sign ++ body

end Binary64

end SamplingFrame
