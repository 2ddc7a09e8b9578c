import SamplingFrame.Number.Binary64

/-!
# Floating point numbers beyond the finite ones

Numbers that may be infinite or no number at all, their text, and how a text is read: in positional
or scientific notation or by name, with an optional sign, as the nearest number.
-/

namespace SamplingFrame

/-- A floating point number that need not be finite. -/
inductive Floating where
  | finite (x : Binary64)
  | infinite (negative : Bool)
  | nan
  deriving DecidableEq, Repr

namespace Floating

/-- The text of a number, in positional notation. -/
def render : Floating → String
  | .finite x => String.ofList x.renderPositional
  | .infinite false => "inf"
  | .infinite true => "-inf"
  | .nan => "NaN"

/-- The nearest whole number to a finite magnitude, a half going up. -/
def roundMagnitude (x : Binary64) : Nat :=
  if x.exponent < 0 then
    (x.significand + Whole.twoTo (x.exponent.natAbs - 1)) / Whole.twoTo x.exponent.natAbs
  else x.significand * Whole.twoTo x.exponent.natAbs

/-- The nearest number from zero to the largest of 64 bits. -/
def toCount : Floating → Nat
  | .finite x => if x.negative then 0 else min (roundMagnitude x) Whole.maxUnsigned
  | .infinite negative => if negative then 0 else Whole.maxUnsigned
  | .nan => 0

/-- Comparison by value: no number comes last, and zeros of either sign are equal. -/
def compare : Floating → Floating → Ordering
  | .nan, .nan => .eq
  | .nan, _ => .gt
  | _, .nan => .lt
  | .infinite a, .infinite b => Ord.compare b.toNat a.toNat
  | .infinite a, .finite _ => if a then .lt else .gt
  | .finite _, .infinite b => if b then .gt else .lt
  | .finite x, .finite y =>
    let (n, d) := Binary64.scaleBy 2 x.significand 1 x.exponent
    let (m, e) := Binary64.scaleBy 2 y.significand 1 y.exponent
    let left : Int := if x.negative then -(n * e : Nat) else (n * e : Nat)
    let right : Int := if y.negative then -(m * d : Nat) else (m * d : Nat)
    Ord.compare left right

/-- Splits a number in decimal notation, without its sign, into the digits before and after the
point and the power of ten. At least one digit must stand before the power. -/
def split? (cs : List Char) : Option (List Char × List Char × Int) := do
  let whole := cs.takeWhile Char.isDigit
  let rest := cs.drop whole.length
  let (places, rest) := match rest with
    | '.' :: rest => (rest.takeWhile Char.isDigit, rest.dropWhile Char.isDigit)
    | rest => ([], rest)
  guard !(whole.isEmpty && places.isEmpty)
  let power? (ds : List Char) : Option Int :=
    if !ds.isEmpty && ds.all Char.isDigit then some (Nat.ofDigitChars 10 ds 0) else none
  let power ← match rest with
    | [] => some 0
    | c :: rest =>
      if c = 'e' || c = 'E' then
        match rest with
        | '-' :: ds => (power? ds).map (-·)
        | '+' :: ds => power? ds
        | ds => power? ds
      else none
  return (whole, places, power)

/-- A number of a given sign. Numbers that are too large are infinite. -/
def ofMagnitude? (negative : Bool) (cs : List Char) : Option Floating :=
  match String.ofList (cs.map Char.toLower) with
  | "inf" | "infinity" => some (.infinite negative)
  | "nan" => some .nan
  | _ => do
    let (whole, places, power) ← split? cs
    let digits := Nat.ofDigitChars 10 (whole ++ places) 0
    match Binary64.ofDecimal? negative digits (power - places.length) with
    | some x => return .finite x
    | none => return .infinite negative

/-- A number with an optional sign. -/
def ofText? : List Char → Option Floating
  | '-' :: cs => ofMagnitude? true cs
  | '+' :: cs => ofMagnitude? false cs
  | cs => ofMagnitude? false cs

end Floating

end SamplingFrame
