import SamplingFrame.Settings.Value
import SamplingFrame.Toml.Quoted

/-!
# Numbers of a TOML document

Whole numbers of 64 bits in four bases, and floating point numbers. Single underscores may stand
between digits.
-/

namespace SamplingFrame.Toml

open Text (numberIn?)

/-- Removes separators, each of which must stand between two digits. -/
def dropSeparators? : List Char → Option (List Char)
  | [] => some []
  | [c] => if c = '_' then none else some [c]
  | c :: d :: cs =>
    if c = '_' then none
    else if d = '_' then
      match cs with
      | [] => none
      | e :: _ => if e = '_' then none else (dropSeparators? cs).map (c :: ·)
    else (dropSeparators? (d :: cs)).map (c :: ·)

/-- A whole number of 64 bits. -/
def signed? (negative : Bool) (n : Nat) : Option Setting :=
  if negative then
    if n ≤ Whole.maxSigned + 1 then some (.integer (-(n : Int))) else none
  else if n ≤ Whole.maxSigned then some (.integer n) else none

/-- Decimal digits without a needless zero in front. -/
def wholeDigits? (cs : List Char) : Option (List Char) := do
  let ds ← dropSeparators? cs
  guard (!ds.isEmpty && ds.all Char.isDigit)
  match ds with
  | '0' :: _ :: _ => none
  | _ => return ds

/-- Decimal digits, at least one. -/
def digits? (cs : List Char) : Option (List Char) := do
  let ds ← dropSeparators? cs
  guard (!ds.isEmpty && ds.all Char.isDigit)
  return ds

/-- The exponent of a floating point number, with its mark. -/
def exponent? : List Char → Option Int
  | [] => some 0
  | _ :: '-' :: cs => (digits? cs).map fun ds => -(Nat.ofDigitChars 10 ds 0 : Int)
  | _ :: '+' :: cs => (digits? cs).map fun ds => (Nat.ofDigitChars 10 ds 0 : Int)
  | _ :: cs => (digits? cs).map fun ds => (Nat.ofDigitChars 10 ds 0 : Int)

/-- A floating point number without sign. -/
def float? (negative : Bool) (cs : List Char) : Option Setting := do
  let isMark (c : Char) : Bool := c = 'e' || c = 'E'
  let mantissa := cs.takeWhile (!isMark ·)
  let power ← exponent? (cs.dropWhile (!isMark ·))
  let whole ← wholeDigits? (mantissa.takeWhile (· ≠ '.'))
  let places ← match mantissa.dropWhile (· ≠ '.') with
    | [] => some []
    | _ :: ds => digits? ds
  let n := Nat.ofDigitChars 10 (whole ++ places) 0
  let x ← Binary64.ofDecimal? negative n (power - places.length)
  return .real (.finite x)

/-- A decimal number without its sign. -/
def unsigned? (negative : Bool) (cs : List Char) : Option Setting :=
  if cs = "inf".toList then some (.real (.infinite negative))
  else if cs = "nan".toList then some (.real .nan)
  else match wholeDigits? cs with
    | some ds => signed? negative (Nat.ofDigitChars 10 ds 0)
    | none => float? negative cs

/-- A number in a base that is named in front. -/
def based? (base : Nat) (cs : List Char) : Option Setting := do
  let ds ← dropSeparators? cs
  guard (!ds.isEmpty)
  signed? false (← numberIn? base ds)

/-- A number of any form. -/
def number? : List Char → Option Setting
  | '0' :: 'x' :: ds => based? 16 ds
  | '0' :: 'o' :: ds => based? 8 ds
  | '0' :: 'b' :: ds => based? 2 ds
  | '+' :: ds => unsigned? false ds
  | '-' :: ds => unsigned? true ds
  | ds => unsigned? false ds

end SamplingFrame.Toml
