/-!
# Whole numbers as text

Reading optional sign and decimal digits, with a bound, and writing them. The reader goes from left
to right and reports the first fault: a character that is no digit, or the digit at which the bound
is passed.
-/

namespace SamplingFrame.Whole

/-- Why a text is not a whole number within bounds. -/
inductive Fault where
  | empty
  | invalidDigit
  | tooLarge
  | tooSmall
  deriving DecidableEq, Repr

/-- The wording of a fault. -/
def Fault.message : Fault → String
  | .empty => "cannot parse integer from empty string"
  | .invalidDigit => "invalid digit found in string"
  | .tooLarge => "number too large to fit in target type"
  | .tooSmall => "number too small to fit in target type"

/-- The value of a decimal digit. -/
def digit? (c : Char) : Option Nat := if c.isDigit then some (c.toNat - '0'.toNat) else none

/-- A power of two. -/
def twoTo (n : Nat) : Nat := Nat.pow 2 n

/-- A power of ten. -/
def tenTo (n : Nat) : Nat := Nat.pow 10 n

/-- The decimal digits of a number, without leading zeros. -/
def digits (n : Nat) : List Char := Nat.toDigits 10 n

/-- Reads further digits onto `acc`; `excess` is the fault of passing `limit`. -/
def readDigits (limit : Nat) (excess : Fault) : Nat → List Char → Except Fault Nat
  | acc, [] => .ok acc
  | acc, c :: cs =>
    match digit? c with
    | none => .error .invalidDigit
    | some d =>
      if limit < acc * 10 + d then .error excess
      else readDigits limit excess (acc * 10 + d) cs

/-- At least one digit, up to `limit`. -/
def readMagnitude (limit : Nat) (excess : Fault) : List Char → Except Fault Nat
  | [] => .error .invalidDigit
  | cs => readDigits limit excess 0 cs

/-- A number from 0 to `limit`, with an optional `+`. -/
def readUnsigned (limit : Nat) : List Char → Except Fault Nat
  | [] => .error .empty
  | '+' :: cs => readMagnitude limit .tooLarge cs
  | cs => readMagnitude limit .tooLarge cs

/-- The largest signed 64-bit number. -/
def maxSigned : Nat := 9223372036854775807

/-- The largest unsigned 64-bit number. -/
def maxUnsigned : Nat := 18446744073709551615

/-- A signed 64-bit number, with an optional sign. -/
def readSigned : List Char → Except Fault Int64
  | [] => .error .empty
  | '+' :: cs => (readMagnitude maxSigned .tooLarge cs).map fun n => Int64.ofInt n
  | '-' :: cs => (readMagnitude (maxSigned + 1) .tooSmall cs).map fun n => Int64.ofInt (-n)
  | cs => (readMagnitude maxSigned .tooLarge cs).map fun n => Int64.ofInt n

/-- A number in decimal digits, with `-` in front of a negative one. -/
def render (n : Int) : List Char :=
  if n < 0 then '-' :: digits n.natAbs else digits n.natAbs

end SamplingFrame.Whole
