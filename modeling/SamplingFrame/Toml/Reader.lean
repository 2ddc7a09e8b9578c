import SamplingFrame.Toml.Document
import SamplingFrame.Toml.Moment
import SamplingFrame.Toml.Number
import SamplingFrame.Toml.Quoted

/-!
# Reading TOML documents

Lines of keys and values, under headers that open tables. Dates and times are kept as text.
-/

namespace SamplingFrame.Toml

open Text (Scanner scanChar)

/-- A text without the comment at its start, if it has one and that is well formed. -/
def skipComment? : List Char → Option (List Char)
  | '#' :: cs => some (cs.dropWhile isPrintable)
  | cs => some cs

/-- The rest of a text after the end of a line. -/
def endLine? (cs : List Char) : Option (List Char) := do
  let cs ← skipComment? (skipBlank cs)
  if cs.isEmpty then return cs else afterBreak? cs

/-- Skips blanks, comments and line breaks. -/
def skipGap : Nat → List Char → List Char
  | 0, cs => cs
  | fuel + 1, cs =>
    match skipBlank cs with
    | '#' :: rest => skipGap fuel (rest.dropWhile isPrintable)
    | rest =>
      match afterBreak? rest with
      | some rest => skipGap fuel rest
      | none => rest

/-- Whether a character may stand in a key without quotes. -/
def isKeyChar (c : Char) : Bool :=
  c.isDigit || ('a' ≤ c && c ≤ 'z') || ('A' ≤ c && c ≤ 'Z') || c = '_' || c = '-'

/-- A part of a key. -/
def scanKeyPart : Scanner String := fun cs =>
  match cs with
  | '"' :: rest => scanBasic cs.length [] rest
  | '\'' :: rest => scanLiteral rest
  | _ =>
    let word := cs.takeWhile isKeyChar
    if word.isEmpty then none else some (String.ofList word, cs.drop word.length)

/-- The parts of a key, with points between them. -/
def scanKey : Nat → Scanner (List String)
  | 0, _ => none
  | fuel + 1, cs => do
    let (part, rest) ← scanKeyPart (skipBlank cs)
    match skipBlank rest with
    | '.' :: rest => do
      let (parts, rest) ← scanKey fuel rest
      return (part :: parts, rest)
    | rest => return ([part], rest)

/-- How many parts a key may have, and how many arrays and tables may stand within each other. -/
def maxDepth : Nat := 80

/-- Splits a key into its path and its last part. -/
def splitKey? (key : List String) : Option (List String × String) := do
  guard (key.length ≤ maxDepth)
  return (key.dropLast, ← key.getLast?)

/-- The value of a word. -/
def word? (cs : List Char) : Option Setting :=
  if cs = "true".toList then some (.boolean true)
  else if cs = "false".toList then some (.boolean false)
  else match momentText? cs with
    | some moment => some (.text (String.ofList moment))
    | none => number? cs

/-- Whether a character may stand in a word. -/
def isWordChar (c : Char) : Bool := isKeyChar c || c = '+' || c = '.' || c = ':'

/-- A word; the time of day may follow a date after a space. -/
def scanWord : Scanner Setting := fun cs => do
  let word := cs.takeWhile isWordChar
  let rest := cs.drop word.length
  let more := match rest with
    | ' ' :: rest => ' ' :: rest.takeWhile isWordChar
    | _ => []
  match momentText? (word ++ more) with
  | some moment => return (.text (String.ofList moment), cs.drop (word ++ more).length)
  | none => return (← word? word, rest)

mutual

/-- A value; `room` arrays and tables may stand within each other there. -/
def scanValue : Nat → Nat → Scanner Setting
  | 0, _, _ => none
  | fuel + 1, room, cs =>
    match cs, room with
    | '[' :: rest, room + 1 =>
      (scanItems fuel room rest).map fun (items, rest) => (.list items, rest)
    | '\x7b' :: rest, room + 1 =>
      (scanInline fuel room [] rest).map fun (es, rest) => (.table (toSettings es), rest)
    | '"' :: _, _ | '\'' :: _, _ => (scanString cs).map fun (s, rest) => (.text s, rest)
    | cs, _ => scanWord cs

/-- The items of an array, up to its closing bracket. -/
def scanItems : Nat → Nat → Scanner (List Setting)
  | 0, _, _ => none
  | fuel + 1, room, cs =>
    match skipGap cs.length cs with
    | ']' :: rest => some ([], rest)
    | cs => do
      let (v, rest) ← scanValue fuel room cs
      match skipGap rest.length rest with
      | ',' :: rest => do
        let (vs, rest) ← scanItems fuel room rest
        return (v :: vs, rest)
      | ']' :: rest => return ([v], rest)
      | _ => none

/-- The entries of a table between braces, up to the closing one. -/
def scanInline : Nat → Nat → Entries → Scanner Entries
  | 0, _, _, _ => none
  | fuel + 1, room, es, cs =>
    match skipGap cs.length cs with
    | '\x7d' :: rest => some (es, rest)
    | cs => do
      let (key, rest) ← scanKey cs.length cs
      let (path, last) ← splitKey? key
      let (_, rest) ← scanChar '=' (skipGap rest.length rest)
      let (v, rest) ← scanValue fuel room (skipGap rest.length rest)
      let es ← es.add path last v
      match skipGap rest.length rest with
      | ',' :: rest => scanInline fuel room es rest
      | '\x7d' :: rest => return (es, rest)
      | _ => none

end

/-- The header of a table, after its opening brackets. -/
def scanHeader (close : List Char) : Scanner (List String × String) := fun cs => do
  let (key, rest) ← scanKey cs.length cs
  let parts ← splitKey? key
  let rest := skipBlank rest
  guard (close.isPrefixOf rest)
  return (parts, ← endLine? (rest.drop close.length))

/-- Reads line after line; `opened` is the path of the table that was opened last. -/
def readLines : Nat → List String → Entries → List Char → Option Entries
  | 0, _, _, _ => none
  | fuel + 1, opened, es, cs =>
    match skipBlank cs with
    | [] => some es
    | '[' :: '[' :: cs => do
      let ((path, key), rest) ← scanHeader [']', ']'] cs
      readLines fuel (path ++ [key]) (← es.openItem path key) rest
    | '[' :: cs => do
      let ((path, key), rest) ← scanHeader [']'] cs
      readLines fuel (path ++ [key]) (← es.openTable path key) rest
    | cs =>
      match endLine? cs with
      | some rest => readLines fuel opened es rest
      | none => do
        let (key, rest) ← scanKey cs.length cs
        let (path, last) ← splitKey? key
        let (_, rest) ← scanChar '=' (skipBlank rest)
        let (v, rest) ← scanValue (2 * cs.length) maxDepth (skipBlank rest)
        readLines fuel opened (← es.addBelow opened path last v) (← endLine? rest)

/-- The table that a document holds. -/
def read? (cs : List Char) : Option (List (String × Setting)) :=
  let cs := match cs with
    | '\ufeff' :: rest => rest
    | cs => cs
  (readLines (cs.length + 1) [] [] cs).map toSettings

end SamplingFrame.Toml
