import SamplingFrame.Settings.Value
import SamplingFrame.Text.Blank
import SamplingFrame.Text.Letter
import SamplingFrame.Text.Scanner

/-!
# Reading JSON5 documents

Documents of the same values as JSON that are easier to write by hand: with comments, trailing
commas, keys without quotes, strings in either quotes, and numbers of more forms.
-/

namespace SamplingFrame.Json5

open Text (Scanner)

/-- Whether a character ends a line. -/
def isLineEnd (c : Char) : Bool := c = '\n' || c = '\r' || c = '\u2028' || c = '\u2029'

/-- Whether a character may stand between the parts of a document. -/
def isSpace (c : Char) : Bool := (Text.isBlank c && c ≠ '\u0085') || c = '\ufeff'

/-- The rest of a text after the end of a comment over several lines. -/
def afterComment? : List Char → Option (List Char)
  | [] => none
  | '*' :: '/' :: cs => some cs
  | _ :: cs => afterComment? cs

/-- A text without the space and the comments at its start. -/
def skipSpace : Nat → List Char → List Char
  | 0, cs => cs
  | fuel + 1, cs =>
    match cs.dropWhile isSpace with
    | '/' :: '/' :: rest => skipSpace fuel (rest.dropWhile (!isLineEnd ·))
    | '/' :: '*' :: rest =>
      match afterComment? rest with
      | some rest => skipSpace fuel rest
      | none => '/' :: '*' :: rest
    | rest => rest

/-- A text without the space and the comments at its start. -/
def skip (cs : List Char) : List Char := skipSpace cs.length cs

/-- The character of an escape, after its backslash; none for an escaped line end. -/
def scanEscape : Scanner (Option Char)
  | 'b' :: cs => some ('\x08', cs)
  | 'f' :: cs => some ('\x0c', cs)
  | 'n' :: cs => some ('\n', cs)
  | 'r' :: cs => some ('\r', cs)
  | 't' :: cs => some ('\t', cs)
  | 'v' :: cs => some ('\x0b', cs)
  | 'x' :: cs => (Text.scanCodePoint 2 cs).map fun (c, rest) => (some c, rest)
  | 'u' :: cs => (Text.scanCodePoint 4 cs).map fun (c, rest) => (some c, rest)
  | '\r' :: '\n' :: cs => some (none, cs)
  | '0' :: cs => if (cs.head?.any Char.isDigit) then none else some ('\x00', cs)
  | c :: cs =>
    if isLineEnd c then some (none, cs) else if c.isDigit then none else some (some c, cs)
  | [] => none

/-- A string after its opening quote; the characters before are given backwards. -/
def scanString (quote : Char) : Nat → List Char → Scanner String
  | 0, _, _ => none
  | _ + 1, _, [] => none
  | fuel + 1, before, c :: cs =>
    if c = quote then some (String.ofList before.reverse, cs)
    else if c = '\\' then do
      let (e, rest) ← scanEscape cs
      scanString quote fuel (e.toList ++ before) rest
    else if c = '\n' || c = '\r' then none
    else scanString quote fuel (c :: before) cs

/-- Whether a character may stand in a key without quotes. -/
def isNameChar (c : Char) : Bool := Text.isAlphanumeric c || c = '$' || c = '_'

/-- A key with or without quotes. -/
def scanKey : Scanner String
  | '"' :: cs => scanString '"' (cs.length + 1) [] cs
  | '\'' :: cs => scanString '\'' (cs.length + 1) [] cs
  | cs =>
    let name := cs.takeWhile isNameChar
    if name.isEmpty || name.head?.any Char.isDigit then none
    else some (String.ofList name, cs.drop name.length)

/-- Whether a character may stand in a number or a word. -/
def isWordChar (c : Char) : Bool := c.isAlphanum || c = '+' || c = '-' || c = '.'

/-- A whole number of 64 bits in hexadecimal digits. -/
def hexadecimal? (ds : List Char) : Option Setting := do
  guard !ds.isEmpty
  let n ← Text.numberIn? 16 ds
  if n ≤ Whole.maxSigned then return .integer n else none

/-- A decimal number: a whole number of 64 bits, or a floating point number. -/
def decimal? (cs : List Char) : Option Setting :=
  let digits := cs.dropWhile fun c => c = '+' || c = '-'
  if cs.length - digits.length ≤ 1 then
    match digits with
    | '0' :: d :: _ => if d.isDigit then none else finish cs
    | _ => finish cs
  else none
where
  /-- The number without regard to needless zeros. -/
  finish (cs : List Char) : Option Setting :=
    if cs.any fun c => c = '.' || c = 'e' || c = 'E' then (Floating.ofText? cs).map .real
    else match Whole.readSigned cs with
      | .ok n => some (.integer n.toInt)
      | .error _ => none

/-- The value of a word. -/
def word? (cs : List Char) : Option Setting :=
  match String.ofList cs with
  | "null" => some .nil
  | "true" => some (.boolean true)
  | "false" => some (.boolean false)
  | "Infinity" | "+Infinity" => some (.real (.infinite false))
  | "-Infinity" => some (.real (.infinite true))
  | "NaN" | "+NaN" | "-NaN" => some (.real .nan)
  | _ =>
    match cs with
    | '0' :: 'x' :: ds | '0' :: 'X' :: ds => hexadecimal? ds
    | cs => decimal? cs

mutual

/-- A value. -/
def scanValue : Nat → Scanner Setting
  | 0, _ => none
  | fuel + 1, cs =>
    match cs with
    | '[' :: rest => (scanItems fuel (skip rest)).map fun (items, rest) => (.list items, rest)
    | '\x7b' :: rest =>
      (scanMembers fuel [] (skip rest)).map fun (es, rest) => (.table es, rest)
    | '"' :: rest => (scanString '"' cs.length [] rest).map fun (s, rest) => (.text s, rest)
    | '\'' :: rest => (scanString '\'' cs.length [] rest).map fun (s, rest) => (.text s, rest)
    | cs => do
      let word := cs.takeWhile isWordChar
      return (← word? word, cs.drop word.length)

/-- The items of a list, up to its closing bracket. -/
def scanItems : Nat → Scanner (List Setting)
  | 0, _ => none
  | fuel + 1, cs =>
    match cs with
    | ']' :: rest => some ([], rest)
    | cs => do
      let (v, rest) ← scanValue fuel cs
      match skip rest with
      | ',' :: rest => do
        let (vs, rest) ← scanItems fuel (skip rest)
        return (v :: vs, rest)
      | ']' :: rest => return ([v], rest)
      | _ => none

/-- The entries of a table, up to its closing brace. -/
def scanMembers : Nat → List (String × Setting) → Scanner (List (String × Setting))
  | 0, _, _ => none
  | fuel + 1, es, cs =>
    match cs with
    | '\x7d' :: rest => some (es, rest)
    | cs => do
      let (key, rest) ← scanKey cs
      let (_, rest) ← Text.scanChar ':' (skip rest)
      let (v, rest) ← scanValue fuel (skip rest)
      let es := Setting.put key v es
      match skip rest with
      | ',' :: rest => scanMembers fuel es (skip rest)
      | '\x7d' :: rest => return (es, rest)
      | _ => none

end

/-- The entries of a document that holds one table. -/
def read? (cs : List Char) : Option (List (String × Setting)) := do
  match ← scanValue (2 * cs.length + 1) (skip cs) with
  | (.table es, rest) => if (skip rest).isEmpty then return es else none
  | _ => none

end SamplingFrame.Json5
