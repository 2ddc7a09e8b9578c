import SamplingFrame.Calendar.Date.Reader

/-!
# Timestamps

A date with a time of day and an offset. A rule takes the date that a timestamp has written down; a
frame keeps the moment itself, in universal time.
-/

namespace SamplingFrame

/-- A time of day; second 60 is a leap second. -/
structure TimeOfDay where
  hour : Nat
  minute : Nat
  second : Nat
  nanosecond : Nat
  deriving DecidableEq, Repr

/-- A date and time as written down, with the minutes that it is ahead of universal time. -/
structure Timestamp where
  date : Date
  time : TimeOfDay
  offset : Int
  deriving DecidableEq, Repr

namespace Timestamp

open Date (Spacing scanDashed)
open Text (Scanner scanDigits scanExact scanChar trimStart)

/-- Whether there is such a time of day. -/
def isTime (hour minute second : Nat) : Bool := hour ≤ 23 && minute ≤ 59 && second ≤ 60

/-- A fraction of a second, in nanoseconds; digits after the ninth are dropped. -/
def scanFraction : Scanner Nat
  | '.' :: cs =>
    let run := cs.takeWhile Char.isDigit
    if run.isEmpty then none
    else
      let kept := run.take 9
      some (Nat.ofDigitChars 10 kept 0 * Whole.tenTo (9 - kept.length), cs.drop run.length)
  | cs => some (0, cs)

/-- The letter or blank between date and time. -/
def scanSeparator : Scanner Unit
  | c :: cs => if c = 'T' || c = 't' || c = ' ' then some ((), cs) else none
  | [] => none

/-- A sign: plus, hyphen or minus; the answer says whether it is negative. -/
def scanSign : Scanner Bool
  | c :: cs =>
    if c = '+' then some (false, cs)
    else if c = '-' || c = '\u2212' then some (true, cs)
    else none
  | [] => none

/-- A signed offset in hours and minutes, of less than a day; `between` skips what stands between
the two. -/
def scanOffset (between : Scanner Unit) : Scanner Int := fun cs => do
  let (negative, cs) ← scanSign cs
  let (hours, cs) ← scanExact 2 cs
  let (_, cs) ← between cs
  let (minutes, cs) ← scanExact 2 cs
  guard (minutes ≤ 59 && hours ≤ 23)
  let offset : Int := hours * 60 + minutes
  return (if negative then -offset else offset, cs)

/-- The letter for universal time, or an offset. -/
def scanZone (between : Scanner Unit) : Scanner Int
  | 'Z' :: cs | 'z' :: cs => some (0, cs)
  | cs => scanOffset between cs

/-- The strict form: every part in its full width, and nothing before or after. -/
def readStrict? (cs : List Char) : Option Timestamp := do
  let (year, cs) ← scanExact 4 cs
  let (_, cs) ← scanChar '-' cs
  let (month, cs) ← scanExact 2 cs
  let (_, cs) ← scanChar '-' cs
  let (day, cs) ← scanExact 2 cs
  let (_, cs) ← scanSeparator cs
  let (hour, cs) ← scanExact 2 cs
  let (_, cs) ← scanChar ':' cs
  let (minute, cs) ← scanExact 2 cs
  let (_, cs) ← scanChar ':' cs
  let (second, cs) ← scanExact 2 cs
  let (nanosecond, cs) ← scanFraction cs
  let (offset, cs) ← scanZone (scanChar ':') cs
  guard (isTime hour minute second && cs.isEmpty)
  let date ← Date.ofParts? year month day
  return ⟨date, ⟨hour, minute, second, nanosecond⟩, offset⟩

/-- A colon after blanks. -/
def scanLooseColon : Scanner Unit := fun cs => scanChar ':' (trimStart cs)

/-- Any colons and blanks. -/
def skipColons : Scanner Unit := fun cs =>
  some ((), cs.dropWhile fun c => c = ':' || Text.isBlank c)

/-- The word for universal time, in any case. -/
def scanUtc : Scanner Int
  | c :: d :: e :: cs =>
    if c.toLower = 'u' && d.toLower = 't' && e.toLower = 'c' then some (0, cs) else none
  | _ => none

/-- The relaxed form: numbers of any width up to the full one, blanks between the parts, and the
offset with or without a colon. -/
def readRelaxed? (cs : List Char) : Option Timestamp := do
  let (date, cs) ← scanDashed .loose cs
  let (_, cs) ← scanSeparator cs
  let (hour, cs) ← scanDigits (some 2) (trimStart cs)
  let (_, cs) ← scanLooseColon cs
  let (minute, cs) ← scanDigits (some 2) (trimStart cs)
  let (_, cs) ← scanLooseColon cs
  let (second, cs) ← scanDigits (some 2) (trimStart cs)
  let (nanosecond, cs) ← scanFraction cs
  let cs := trimStart cs
  let (offset, cs) ← (scanUtc cs).or (scanZone skipColons cs)
  guard (isTime hour minute second && (trimStart cs).isEmpty)
  return ⟨date, ⟨hour, minute, second, nanosecond⟩, offset⟩

/-- The same moment in universal time, if its date is known. -/
def toUniversal? (t : Timestamp) : Option Timestamp :=
  let minutes : Int := t.time.hour * 60 + t.time.minute - t.offset
  let day := minutes / 1440
  let left := (minutes % 1440).natAbs
  let date? :=
    if day < 0 then t.date.previous? else if 0 < day then t.date.next? else some t.date
  date?.map fun date => ⟨date, { t.time with hour := left / 60, minute := left % 60 }, 0⟩

/-- A fraction of a second in as many groups of three digits as it takes. -/
def renderFraction (nanosecond : Nat) : List Char :=
  if nanosecond = 0 then []
  else if nanosecond % 1000000 = 0 then '.' :: Date.padded 3 (nanosecond / 1000000)
  else if nanosecond % 1000 = 0 then '.' :: Date.padded 6 (nanosecond / 1000)
  else '.' :: Date.padded 9 nanosecond

/-- A moment in universal time. -/
def render (t : Timestamp) : List Char :=
  t.date.render ++ 'T' :: Date.padded 2 t.time.hour ++ ':' :: Date.padded 2 t.time.minute ++
    ':' :: Date.padded 2 t.time.second ++ renderFraction t.time.nanosecond ++ ['Z']

end Timestamp

end SamplingFrame
