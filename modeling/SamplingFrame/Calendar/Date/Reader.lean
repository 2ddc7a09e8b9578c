import SamplingFrame.Calendar.Date
import SamplingFrame.Text.Blank
import SamplingFrame.Text.Scanner

/-!
# Reading dates

Dates with dashes, in a tight form for rules and a loose form for records. The two differ in where
blanks may stand.
-/

namespace SamplingFrame.Date

open Text (Scanner scanChar scanDigits trimStart)

/-- A year: a sign and any number of digits, or up to four digits. -/
def scanYear : Scanner Int
  | '-' :: cs => (scanDigits none cs).map fun (n, rest) => (-(n : Int), rest)
  | '+' :: cs => (scanDigits none cs).map fun (n, rest) => ((n : Int), rest)
  | cs => (scanDigits (some 4) cs).map fun (n, rest) => ((n : Int), rest)

/-- Where blanks may stand between the parts of a date: only in front of a number, or in front of a
dash as well. -/
inductive Spacing where
  | tight
  | loose
  deriving DecidableEq, Repr

/-- A dash, in loose spacing after blanks. -/
def scanDash (spacing : Spacing) : Scanner Unit := fun cs =>
  scanChar '-' (if spacing = .loose then trimStart cs else cs)

/-- Year, month and day with dashes between them. -/
def scanDashed (spacing : Spacing) : Scanner Date := fun cs => do
  let (year, cs) ← scanYear (trimStart cs)
  let (_, cs) ← scanDash spacing cs
  let (month, cs) ← scanDigits (some 2) (trimStart cs)
  let (_, cs) ← scanDash spacing cs
  let (day, cs) ← scanDigits (some 2) (trimStart cs)
  let date ← ofParts? year month day
  return (date, cs)

/-- A date in tight spacing, with nothing after it. -/
def readTight? (cs : List Char) : Option Date :=
  match scanDashed .tight cs with
  | some (d, []) => some d
  | _ => none

/-- A date in loose spacing, with nothing but blanks after it. -/
def readLoose? (cs : List Char) : Option Date :=
  match scanDashed .loose cs with
  | some (d, rest) => if (trimStart rest).isEmpty then some d else none
  | none => none

end SamplingFrame.Date
