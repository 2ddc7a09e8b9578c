/-!
# Scanners

Readers of the front of a text, from which the readers of dates and documents are made. They know
characters, digits in any base up to sixteen, and code points in hexadecimal digits.
-/

namespace SamplingFrame.Text

/-- A reader of the front of a text: what it found, and the rest. -/
abbrev Scanner (α : Type) := List Char → Option (α × List Char)

/-- The longest run of digits, cut off after `width` if that is given, as a number. -/
def scanDigits (width : Option Nat) : Scanner Nat := fun cs =>
  let run := cs.takeWhile Char.isDigit
  let run := match width with
    | some w => run.take w
    | none => run
  if run.isEmpty then none else some (Nat.ofDigitChars 10 run 0, cs.drop run.length)

/-- Exactly `width` digits. -/
def scanExact (width : Nat) : Scanner Nat := fun cs =>
  let run := cs.take width
  if run.length = width && run.all Char.isDigit then
    some (Nat.ofDigitChars 10 run 0, cs.drop width)
  else none

/-- A given character. -/
def scanChar (c : Char) : Scanner Unit
  | [] => none
  | d :: cs => if d = c then some ((), cs) else none

/-- The value of a digit in a base of up to sixteen. -/
def digitIn? (base : Nat) (c : Char) : Option Nat :=
  let n :=
    if c.isDigit then c.toNat - 48
    else if 'a' ≤ c && c ≤ 'f' then c.toNat - 87
    else if 'A' ≤ c && c ≤ 'F' then c.toNat - 55
    else base
  if n < base then some n else none

/-- The number that digits of a base are. -/
def numberIn? (base : Nat) (cs : List Char) : Option Nat :=
  cs.foldlM (fun n c => (digitIn? base c).map (n * base + ·)) 0

/-- The character of a code point given in hexadecimal digits. -/
def scanCodePoint (width : Nat) : Scanner Char := fun cs => do
  let digits := cs.take width
  guard (digits.length = width)
  let n ← numberIn? 16 digits
  guard (n < 0xD800 || (0xE000 ≤ n && n < 0x110000))
  return (Char.ofNat n, cs.drop width)

end SamplingFrame.Text
