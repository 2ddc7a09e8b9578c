import SamplingFrame.Json.Basic
import SamplingFrame.Number.Binary64.Arithmetic

/-!
# Numerals

Numbers as documents write them, and what they stand for. Whole numbers that fit a word are kept as
they are. Of all others the digits that fit a word of 64 bits are collected, and the word is then
multiplied with or divided by powers of ten, rounding each time. So the number need not be the
nearest one to its numeral.
-/

namespace SamplingFrame

/-- A number as it is written. -/
structure Numeral where
  /-- Whether a minus stands in front. -/
  negative : Bool
  /-- The digits before the point. -/
  whole : List Char
  /-- The digits after the point; none if there is no point. -/
  places : List Char
  /-- The power of ten that follows, if there is one. -/
  power : Option Int
  deriving DecidableEq, Repr

namespace Numeral

/-- Digits that have been collected in a word, and the power of ten that belongs to them. -/
structure Collected where
  word : Nat
  exponent : Int
  deriving DecidableEq, Repr

/-- The word with one more digit, if that fits. -/
def push? (word : Nat) (c : Char) : Option Nat :=
  let next := word * 10 + (c.toNat - '0'.toNat)
  if next ≤ Whole.maxUnsigned then some next else none

/-- Collects the digits before the point. From the first one that does not fit, digits count for
the exponent only. -/
def collectWhole (word : Nat) : List Char → Collected
  | [] => ⟨word, 0⟩
  | c :: cs =>
    match push? word c with
    | some next => collectWhole next cs
    | none => ⟨word, (c :: cs).length⟩

/-- Collects digits after the point, up to the first one that does not fit. -/
def collectPlaces (s : Collected) : List Char → Collected
  | [] => s
  | c :: cs =>
    match push? s.word c with
    | some next => collectPlaces ⟨next, s.exponent - 1⟩ cs
    | none => s

/-- The digits of a numeral. -/
def collect (n : Numeral) : Collected := collectPlaces (collectWhole 0 n.whole) n.places

/-- The number that collected digits stand for; none if it is too large. -/
def Collected.scaled? (s : Collected) : Option Binary64 := do
  let word ← Binary64.ofNat? s.word
  if s.exponent < 0 then word.lower? s.exponent.natAbs else word.raise? s.exponent.natAbs

/-- The floating point number that a numeral stands for; none if it is too large. -/
def double? (n : Numeral) : Option Json.Number :=
  let s := n.collect
  let s := { s with exponent := s.exponent + n.power.getD 0 }
  s.scaled?.map fun x => .double { x with negative := n.negative }

/-- The number that a numeral stands for; none if it is too large. Only numerals without point and
power stand for whole numbers, and minus zero is none. -/
def value? (n : Numeral) : Option Json.Number :=
  let s := collectWhole 0 n.whole
  if n.places.isEmpty && n.power.isNone && s.exponent == 0 then
    if !n.negative then some (.integer s.word)
    else if 0 < s.word && s.word ≤ Whole.maxSigned + 1 then some (.integer (-(s.word : Int)))
    else n.double?
  else n.double?

end Numeral

end SamplingFrame
