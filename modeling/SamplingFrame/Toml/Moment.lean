import SamplingFrame.Calendar.Timestamp

/-!
# Dates and times of a TOML document

A date, a time of day, or both, of which only the latter may have an offset. What is kept is a text
of one form: a capital letter between date and time, and a fraction of up to nine digits without
needless zeros.
-/

namespace SamplingFrame.Toml

open Text (Scanner scanExact scanChar)

/-- A fraction of a second, cut off after nine digits and without zeros at its end; of nothing but
zeros one is kept. -/
def scanFraction : Scanner (List Char)
  | '.' :: cs =>
    let run := cs.takeWhile Char.isDigit
    let kept := ((run.take 9).reverse.dropWhile (· = '0')).reverse
    if run.isEmpty then none
    else some ('.' :: (if kept.isEmpty then ['0'] else kept), cs.drop run.length)
  | cs => some ([], cs)

/-- The seconds of a time of day, which may be missing. -/
def scanSeconds : Scanner (List Char)
  | ':' :: cs => do
    let (second, rest) ← scanExact 2 cs
    let (fraction, rest) ← scanFraction rest
    guard (second ≤ 60)
    return (':' :: cs.take 2 ++ fraction, rest)
  | cs => some ([], cs)

/-- A time of day. -/
def scanTime : Scanner (List Char) := fun cs => do
  let (hour, rest) ← scanExact 2 cs
  let (_, rest) ← scanChar ':' rest
  let (minute, rest) ← scanExact 2 rest
  guard (hour ≤ 23 && minute ≤ 59)
  let (seconds, rest) ← scanSeconds rest
  return (cs.take 5 ++ seconds, rest)

/-- An offset of less than a day; there is no negative offset of zero. -/
def scanOffset : Scanner (List Char)
  | [] => none
  | c :: cs =>
    if c = 'Z' || c = 'z' then some (['Z'], cs)
    else do
      guard (c = '+' || c = '-')
      let (hours, rest) ← scanExact 2 cs
      let (_, rest) ← scanChar ':' rest
      let (minutes, rest) ← scanExact 2 rest
      guard (hours ≤ 23 && minutes ≤ 59)
      return ((if hours = 0 && minutes = 0 then '+' else c) :: cs.take 5, rest)

/-- A date. -/
def scanDate : Scanner (List Char) := fun cs => do
  let (year, rest) ← scanExact 4 cs
  let (_, rest) ← scanChar '-' rest
  let (month, rest) ← scanExact 2 rest
  let (_, rest) ← scanChar '-' rest
  let (day, rest) ← scanExact 2 rest
  guard (Date.ofParts? year month day).isSome
  return (cs.take 10, rest)

/-- A time of day with nothing after it, or after a date with no more than an offset. -/
def timeText? (dated : Bool) (cs : List Char) : Option (List Char) := do
  match ← scanTime cs with
  | (time, []) => return time
  | (time, rest) =>
    guard dated
    let (offset, rest) ← scanOffset rest
    guard rest.isEmpty
    return time ++ offset

/-- The date, the time of day, or both, that a word is. -/
def momentText? (cs : List Char) : Option (List Char) :=
  match scanDate cs with
  | some (date, []) => some date
  | some (date, c :: rest) =>
    if c = 'T' || c = 't' || c = ' ' then (timeText? true rest).map fun time => date ++ 'T' :: time
    else none
  | none => timeText? false cs

end SamplingFrame.Toml
