import SamplingFrame.Settings.Value
import SamplingFrame.Text.Scanner

/-!
# Scalars of a YAML document

Texts in quotes and plain texts, and what a plain text stands for.
-/

namespace SamplingFrame.Yaml

open Text (Scanner)

/-- Whether a character is a blank within a line. -/
def isBlank (c : Char) : Bool := c = ' ' || c = '\t'

/-- Whether a text is empty but for blanks and a comment. -/
def isBare (cs : List Char) : Bool :=
  match cs.dropWhile isBlank with
  | [] => true
  | c :: _ => c = '#'

/-- The character of an escape, after its backslash. -/
def scanEscape : Scanner Char
  | '0' :: cs => some ('\x00', cs)
  | 'a' :: cs => some ('\x07', cs)
  | 'b' :: cs => some ('\x08', cs)
  | 't' :: cs | '\t' :: cs => some ('\t', cs)
  | 'n' :: cs => some ('\n', cs)
  | 'v' :: cs => some ('\x0b', cs)
  | 'f' :: cs => some ('\x0c', cs)
  | 'r' :: cs => some ('\r', cs)
  | 'e' :: cs => some ('\x1b', cs)
  | ' ' :: cs => some (' ', cs)
  | '"' :: cs => some ('"', cs)
  | '/' :: cs => some ('/', cs)
  | '\\' :: cs => some ('\\', cs)
  | 'N' :: cs => some ('\u0085', cs)
  | '_' :: cs => some ('\u00a0', cs)
  | 'L' :: cs => some ('\u2028', cs)
  | 'P' :: cs => some ('\u2029', cs)
  | 'x' :: cs => Text.scanCodePoint 2 cs
  | 'u' :: cs => Text.scanCodePoint 4 cs
  | 'U' :: cs => Text.scanCodePoint 8 cs
  | _ => none

/-- A text in double quotes on one line, after the opening quote; the characters before are given
backwards. -/
def scanDouble : Nat → List Char → Scanner String
  | 0, _, _ => none
  | _ + 1, _, [] => none
  | fuel + 1, before, c :: cs =>
    if c = '"' then some (String.ofList before.reverse, cs)
    else if c = '\\' then do
      let (e, rest) ← scanEscape cs
      scanDouble fuel (e :: before) rest
    else if c = '\n' then none
    else scanDouble fuel (c :: before) cs

/-- A text in single quotes on one line, after the opening quote; a quote within is written
twice. -/
def scanSingle (before : List Char) : Scanner String
  | '\'' :: '\'' :: cs => scanSingle ('\'' :: before) cs
  | '\'' :: cs => some (String.ofList before.reverse, cs)
  | c :: cs => if c = '\n' then none else scanSingle (c :: before) cs
  | [] => none

/-- A text in quotes of either kind. -/
def scanQuoted : Scanner String
  | '"' :: cs => scanDouble (cs.length + 1) [] cs
  | '\'' :: cs => scanSingle [] cs
  | _ => none

/-- Whether a character cannot start a plain text. -/
def isIndicator (c : Char) : Bool := ",[]{}#&*!|>'\"%@\x60\t".toList.contains c

/-- Whether a text starts like a plain one: marks of lists, keys and values must have something
directly after them. -/
def startsPlain : List Char → Bool
  | [] => false
  | c :: cs =>
    if c = '-' || c = '?' || c = ':' then cs.head?.any fun d => !isBlank d && d ≠ '\n'
    else !isIndicator c

/-- The plain text at the start of a line, up to a comment or the mark of a value; `stops` end it,
too. The characters before are given backwards. -/
def takePlain (stops : List Char) (before : List Char) : List Char → List Char × List Char
  | [] => (before, [])
  | c :: cs =>
    if c = '\n' || stops.contains c then (before, c :: cs)
    else if c = '#' && before.head?.any isBlank then (before, c :: cs)
    else if c = ':' && cs.head?.all fun d => isBlank d || d = '\n' || stops.contains d then
      (before, c :: cs)
    else takePlain stops (c :: before) cs

/-- A plain text and the rest of its line, without the blanks between them. -/
def scanPlain (stops : List Char) : Scanner (List Char) := fun cs =>
  if startsPlain cs then
    let (reversed, rest) := takePlain stops [] cs
    some ((reversed.dropWhile isBlank).reverse, rest)
  else none

/-- The words for numbers that are not finite, which no setting can hold. -/
def isInfinite (s : String) : Bool :=
  [".inf", ".Inf", ".INF", "+.inf", "+.Inf", "+.INF", "-.inf", "-.Inf", "-.INF",
    ".nan", ".NaN", ".NAN"].contains s

/-- A whole number of 64 bits in a base. -/
def based? (base : Nat) (ds : List Char) : Option Setting := do
  guard !ds.isEmpty
  let n ← Text.numberIn? base ds
  if n ≤ Whole.maxSigned then return .integer n else none

/-- The number that a plain text is. -/
def number? (cs : List Char) : Option Setting :=
  let based := match cs with
    | '0' :: 'x' :: ds => based? 16 ds
    | '0' :: 'o' :: ds => based? 8 ds
    | _ => none
  match based, Whole.readSigned cs with
  | some n, _ => some n
  | none, .ok n => some (.integer n.toInt)
  | none, .error _ => if cs.any Char.isDigit then (Floating.ofText? cs).map .real else none

/-- The value that a plain text stands for. -/
def plainValue? (cs : List Char) : Option Setting :=
  match String.ofList cs with
  | "" | "~" | "null" => some .nil
  | "true" | "True" | "TRUE" => some (.boolean true)
  | "false" | "False" | "FALSE" => some (.boolean false)
  | s => if isInfinite s then none else some ((number? cs).getD (.text s))

end SamplingFrame.Yaml
