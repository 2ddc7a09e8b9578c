import SamplingFrame.Text.Scanner

/-!
# Strings of a TOML document

Strings in double quotes have escapes and strings in single quotes have none. Either kind may stand
on one line, or between three quotes on several lines.
-/

namespace SamplingFrame.Toml

open Text (Scanner scanCodePoint)

/-- Whether a character may stand in a comment or in a literal. -/
def isPrintable (c : Char) : Bool := c = '\t' || (0x20 ≤ c.toNat && c.toNat ≠ 0x7F)

/-- A text without the blanks at its start. -/
def skipBlank (cs : List Char) : List Char := cs.dropWhile fun c => c = ' ' || c = '\t'

/-- The rest of a text after a line break. -/
def afterBreak? : List Char → Option (List Char)
  | '\n' :: cs => some cs
  | '\r' :: '\n' :: cs => some cs
  | _ => none

/-- The character of an escape, after its backslash. -/
def scanEscape : Scanner Char
  | 'b' :: cs => some ('\x08', cs)
  | 't' :: cs => some ('\t', cs)
  | 'n' :: cs => some ('\n', cs)
  | 'f' :: cs => some ('\x0c', cs)
  | 'r' :: cs => some ('\r', cs)
  | '"' :: cs => some ('"', cs)
  | '\\' :: cs => some ('\\', cs)
  | 'e' :: cs => some ('\x1b', cs)
  | 'x' :: cs => scanCodePoint 2 cs
  | 'u' :: cs => scanCodePoint 4 cs
  | 'U' :: cs => scanCodePoint 8 cs
  | _ => none

/-- A string with escapes on one line, after its opening quote; the characters before are given
backwards. -/
def scanBasic : Nat → List Char → Scanner String
  | 0, _, _ => none
  | _ + 1, _, [] => none
  | fuel + 1, before, c :: cs =>
    if c = '"' then some (String.ofList before.reverse, cs)
    else if c = '\\' then do
      let (e, cs) ← scanEscape cs
      scanBasic fuel (e :: before) cs
    else if isPrintable c then scanBasic fuel (c :: before) cs
    else none

/-- A string without escapes on one line, after its opening quote. -/
def scanLiteral : Scanner String := fun cs =>
  let content := cs.takeWhile fun c => c ≠ '\'' && isPrintable c
  match cs.drop content.length with
  | '\'' :: rest => some (String.ofList content, rest)
  | _ => none

/-- A text without the blanks and line breaks at its start. -/
def skipBreaks : Nat → List Char → List Char
  | 0, cs => cs
  | fuel + 1, cs =>
    match afterBreak? (skipBlank cs) with
    | some rest => skipBreaks fuel rest
    | none => skipBlank cs

/-- A string over several lines, after its opening quotes; `escapes` says whether a backslash is
special. Line breaks are kept as they are written, unless a backslash at the end of a line removes
them with the blanks that follow. Up to two quotes may stand in front of the closing ones. -/
def scanLines (quote : Char) (escapes : Bool) : Nat → List Char → Scanner String
  | 0, _, _ => none
  | _ + 1, _, [] => none
  | fuel + 1, before, c :: cs =>
    if c = quote then
      let run := ((c :: cs).takeWhile (· = quote)).take 5
      let rest := (c :: cs).drop run.length
      if run.length < 3 then scanLines quote escapes fuel (run ++ before) rest
      else some (String.ofList (run.drop 3 ++ before).reverse, rest)
    else if c = '\\' && escapes then
      match afterBreak? (skipBlank cs) with
      | some rest => scanLines quote escapes fuel before (skipBreaks rest.length rest)
      | none => do
        let (e, cs) ← scanEscape cs
        scanLines quote escapes fuel (e :: before) cs
    else
      match c, cs with
      | '\n', _ => scanLines quote escapes fuel (c :: before) cs
      | '\r', '\n' :: rest => scanLines quote escapes fuel ('\n' :: c :: before) rest
      | _, _ => if isPrintable c then scanLines quote escapes fuel (c :: before) cs else none

/-- A text without the line break at its start, if it has one. -/
def dropBreak (cs : List Char) : List Char := (afterBreak? cs).getD cs

/-- A string of any form. -/
def scanString : Scanner String := fun cs =>
  let fuel := cs.length
  match cs with
  | '"' :: '"' :: '"' :: rest => scanLines '"' true fuel [] (dropBreak rest)
  | '\'' :: '\'' :: '\'' :: rest => scanLines '\'' false fuel [] (dropBreak rest)
  | '"' :: rest => scanBasic fuel [] rest
  | '\'' :: rest => scanLiteral rest
  | _ => none

end SamplingFrame.Toml
