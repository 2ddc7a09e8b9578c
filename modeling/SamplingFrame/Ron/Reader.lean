import SamplingFrame.Settings.Value
import SamplingFrame.Text.Blank
import SamplingFrame.Text.Letter
import SamplingFrame.Text.Scanner

/-!
# Reading RON documents

Values in object notation: structures with named fields, maps, lists, tuples, options, texts and
numbers. A structure is a table of its fields, whatever its name is.
-/

namespace SamplingFrame.Ron

open Text (Scanner)

/-- The rest of a text after the end of a comment, in which `depth` further ones are open. -/
def afterComment? : Nat → List Char → Option (List Char)
  | _, [] => none
  | depth, '/' :: '*' :: cs => afterComment? (depth + 1) cs
  | 0, '*' :: '/' :: cs => some cs
  | depth + 1, '*' :: '/' :: cs => afterComment? depth cs
  | depth, _ :: cs => afterComment? depth cs

/-- A text without the blanks and the comments at its start. -/
def skipSpace : Nat → List Char → List Char
  | 0, cs => cs
  | fuel + 1, cs =>
    match cs.dropWhile Text.isBlank with
    | '/' :: '/' :: rest => skipSpace fuel (rest.dropWhile (· ≠ '\n'))
    | '/' :: '*' :: rest =>
      match afterComment? 0 rest with
      | some rest => skipSpace fuel rest
      | none => '/' :: '*' :: rest
    | rest => rest

/-- A text without the blanks and the comments at its start. -/
def skip (cs : List Char) : List Char := skipSpace cs.length cs

/-- The character of an escape, after its backslash. -/
def scanEscape : Scanner Char
  | '\'' :: cs => some ('\'', cs)
  | '"' :: cs => some ('"', cs)
  | '\\' :: cs => some ('\\', cs)
  | 'n' :: cs => some ('\n', cs)
  | 'r' :: cs => some ('\r', cs)
  | 't' :: cs => some ('\t', cs)
  | '0' :: cs => some ('\x00', cs)
  | 'x' :: cs => Text.scanCodePoint 2 cs
  | 'u' :: '\x7b' :: cs => do
    let digits := cs.takeWhile (· ≠ '\x7d')
    guard (0 < digits.length && digits.length ≤ 6)
    let (c, _) ← Text.scanCodePoint digits.length digits
    return (c, cs.drop (digits.length + 1))
  | _ => none

/-- A string after its opening quote; the characters before are given backwards. -/
def scanString : Nat → List Char → Scanner String
  | 0, _, _ => none
  | _ + 1, _, [] => none
  | fuel + 1, before, c :: cs =>
    if c = '"' then some (String.ofList before.reverse, cs)
    else if c = '\\' then do
      let (e, rest) ← scanEscape cs
      scanString fuel (e :: before) rest
    else scanString fuel (c :: before) cs

/-- A string without escapes, after the marks in front of its opening quote; it ends at a quote
with as many marks. -/
def scanRaw (marks : Nat) : List Char → Scanner String
  | _, [] => none
  | before, '"' :: cs =>
    if cs.take marks = List.replicate marks '#' then
      some (String.ofList before.reverse, cs.drop marks)
    else scanRaw marks ('"' :: before) cs
  | before, c :: cs => scanRaw marks (c :: before) cs

/-- A character in quotes, after the opening one. -/
def scanLetter : Scanner String := fun cs => do
  let (c, rest) ← match cs with
    | '\\' :: cs => scanEscape cs
    | c :: cs => some (c, cs)
    | [] => none
  let (_, rest) ← Text.scanChar '\'' rest
  return (String.ofList [c], rest)

/-- Whether a character may stand in a name. -/
def isNameChar (c : Char) : Bool := Text.isAlphanumeric c || c = '_'

/-- A name, which does not start with a digit. -/
def scanName : Scanner String := fun cs =>
  let name := cs.takeWhile isNameChar
  if name.isEmpty || name.head?.any Char.isDigit then none
  else some (String.ofList name, cs.drop name.length)

/-- Whether a character may stand in a number. -/
def isNumberChar (c : Char) : Bool := c.isAlphanum || c = '+' || c = '-' || c = '.' || c = '_'

/-- A whole number in a base, with separators. -/
def whole? (negative : Bool) (base : Nat) (ds : List Char) : Option Setting := do
  guard (ds.head?.any (· ≠ '_'))
  let n ← Text.numberIn? base (ds.filter (· ≠ '_'))
  return .integer (if negative then -(n : Int) else n)

/-- A number without sign. -/
def unsigned? (negative : Bool) (cs : List Char) : Option Setting :=
  match cs with
  | '0' :: 'x' :: ds => whole? negative 16 ds
  | '0' :: 'o' :: ds => whole? negative 8 ds
  | '0' :: 'b' :: ds => whole? negative 2 ds
  | cs =>
    if cs = "inf".toList then some (.real (.infinite negative))
    else if cs = "NaN".toList then some (.real .nan)
    else match whole? negative 10 cs with
      | some n => some n
      | none => do
        guard (cs.head?.any fun c => c.isDigit || c = '.')
        return .real (← Floating.ofMagnitude? negative (cs.filter (· ≠ '_')))

/-- A number. -/
def number? : List Char → Option Setting
  | '-' :: cs => unsigned? true cs
  | '+' :: cs => unsigned? false cs
  | cs => unsigned? false cs

/-- A string or character in quotes of any form. -/
def scanText : Scanner Setting := fun cs =>
  let text (scanned : Option (String × List Char)) : Option (Setting × List Char) :=
    scanned.map fun (s, rest) => (.text s, rest)
  match cs with
  | '"' :: rest => text (scanString cs.length [] rest)
  | '\'' :: rest => text (scanLetter rest)
  | 'r' :: rest =>
    let marks := rest.takeWhile (· = '#')
    match rest.drop marks.length with
    | '"' :: rest => text (scanRaw marks.length [] rest)
    | _ => none
  | _ => none

/-- What a name stands for that nothing in brackets follows. -/
def nameValue? (name : String) : Option Setting :=
  match name with
  | "true" => some (.boolean true)
  | "false" => some (.boolean false)
  | "inf" => some (.real (.infinite false))
  | "NaN" => some (.real .nan)
  | _ => some .nil

mutual

/-- A value. -/
def scanValue : Nat → Scanner Setting
  | 0, _ => none
  | fuel + 1, cs =>
    match cs with
    | '[' :: rest => (scanItems ']' fuel (skip rest)).map fun (items, rest) => (.list items, rest)
    | '\x7b' :: rest =>
      (scanMembers fuel [] (skip rest)).map fun (es, rest) => (.table es, rest)
    | '(' :: rest => scanGroup fuel (skip rest)
    | cs =>
      match scanText cs with
      | some found => some found
      | none =>
        match scanName cs with
        | some ("Some", rest) => do
          let (_, rest) ← Text.scanChar '(' (skip rest)
          let (v, rest) ← scanValue fuel (skip rest)
          let (_, rest) ← Text.scanChar ')' (skip rest)
          return (v, rest)
        | some (name, rest) =>
          match skip rest with
          | '(' :: inner => scanGroup fuel (skip inner)
          | _ => (nameValue? name).map (·, rest)
        | none => do
          let word := cs.takeWhile isNumberChar
          return (← number? word, cs.drop word.length)

/-- What stands in round brackets, after the opening one: nothing, named fields, or the items of a
tuple. -/
def scanGroup : Nat → Scanner Setting
  | 0, _ => none
  | fuel + 1, cs =>
    match cs with
    | ')' :: rest => some (.nil, rest)
    | cs =>
      if (scanName cs).any fun (_, rest) => (skip rest).head? = some ':' then
        (scanFields fuel [] cs).map fun (es, rest) => (.table es, rest)
      else (scanItems ')' fuel cs).map fun (items, rest) => (.list items, rest)

/-- Items up to a closing bracket. -/
def scanItems (close : Char) : Nat → Scanner (List Setting)
  | 0, _ => none
  | fuel + 1, cs =>
    if cs.head? = some close then some ([], cs.drop 1)
    else do
      let (v, rest) ← scanValue fuel cs
      match skip rest with
      | ',' :: rest => do
        let (vs, rest) ← scanItems close fuel (skip rest)
        return (v :: vs, rest)
      | c :: rest => if c = close then return ([v], rest) else none
      | [] => none

/-- The entries of a map, up to its closing brace; its keys are texts. -/
def scanMembers : Nat → List (String × Setting) → Scanner (List (String × Setting))
  | 0, _, _ => none
  | fuel + 1, es, cs =>
    match cs with
    | '\x7d' :: rest => some (es, rest)
    | cs => do
      match ← scanValue fuel cs with
      | (.text key, rest) => do
        let (_, rest) ← Text.scanChar ':' (skip rest)
        let (v, rest) ← scanValue fuel (skip rest)
        let es := Setting.put key v es
        match skip rest with
        | ',' :: rest => scanMembers fuel es (skip rest)
        | '\x7d' :: rest => return (es, rest)
        | _ => none
      | _ => none

/-- The fields of a structure, up to its closing bracket. -/
def scanFields : Nat → List (String × Setting) → Scanner (List (String × Setting))
  | 0, _, _ => none
  | fuel + 1, es, cs =>
    match cs with
    | ')' :: rest => some (es, rest)
    | cs => do
      let (key, rest) ← scanName cs
      let (_, rest) ← Text.scanChar ':' (skip rest)
      let (v, rest) ← scanValue fuel (skip rest)
      let es := Setting.put key v es
      match skip rest with
      | ',' :: rest => scanFields fuel es (skip rest)
      | ')' :: rest => return (es, rest)
      | _ => none

end

/-- The entries of a document that holds one table. -/
def read? (cs : List Char) : Option (List (String × Setting)) := do
  match ← scanValue (2 * cs.length + 1) (skip cs) with
  | (.table es, rest) => if (skip rest).isEmpty then return es else none
  | _ => none

end SamplingFrame.Ron
