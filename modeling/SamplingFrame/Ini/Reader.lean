import SamplingFrame.Settings.Value
import SamplingFrame.Text.Blank
import SamplingFrame.Text.Scanner

/-!
# Reading INI documents

Lines of keys and texts, under headers of sections. A key without a header stands for itself, and a
section that comes again replaces what it held. All values are texts.
-/

namespace SamplingFrame.Ini

open Text (Scanner isBlank)

/-- The character that an escape stands for; an escaped line break stands for nothing. -/
def escape? (c : Char) : Option Char :=
  match c with
  | '0' => some '\x00'
  | 'a' => some '\x07'
  | 'b' => some '\x08'
  | 't' => some '\t'
  | 'r' => some '\r'
  | 'n' => some '\n'
  | '\n' => none
  | c => some c

/-- The text up to one of some characters, which stays in the rest; `openEnded` says that it may
end with the document. The characters before are given backwards. -/
def scanUntil (stops : List Char) (openEnded : Bool) (before : List Char) : Scanner (List Char)
  | [] => if openEnded then some (before.reverse, []) else none
  | '\\' :: 'x' :: a :: b :: c :: d :: cs => do
    let (code, _) ← Text.scanCodePoint 4 [a, b, c, d]
    scanUntil stops openEnded (code :: before) cs
  | '\\' :: 'x' :: _ => none
  | '\\' :: c :: cs => scanUntil stops openEnded ((escape? c).toList ++ before) cs
  | c :: cs =>
    if stops.contains c then some (before.reverse, c :: cs)
    else if c = '\\' then none
    else scanUntil stops openEnded (c :: before) cs

/-- A text up to the end of its line. -/
def scanLine : Scanner (List Char) := scanUntil ['\n', '\r'] true []

/-- A text in quotes, after the opening one, with what follows it on its line. -/
def scanQuoted (quote : Char) : Scanner (List Char) := fun cs => do
  let (inner, rest) ← scanUntil [quote] false [] cs
  let (more, rest) ← scanLine (rest.drop 1)
  return (inner ++ more, rest)

/-- A value, after its equals sign or colon. -/
def scanValue : Scanner String := fun cs => do
  let (text, rest) ← match cs.dropWhile fun c => isBlank c && c ≠ '\n' && c ≠ '\r' with
    | '"' :: rest => scanQuoted '"' rest
    | '\'' :: rest => scanQuoted '\'' rest
    | cs => scanLine cs
  return (String.ofList (Text.trim text), rest)

/-- A key, with the equals sign or colon after it. -/
def scanKey : Scanner String := fun cs => do
  let (key, rest) ← scanUntil ['=', ':'] false [] cs
  let key := Text.trim key
  guard !key.isEmpty
  return (String.ofList key, rest.drop 1)

/-- What has been read of a document. -/
structure Partial where
  /-- The entries so far. -/
  entries : List (String × Setting) := []
  /-- The section that is open. -/
  part : Option String := none

/-- Opens a section. -/
def Partial.enter (p : Partial) (name : String) : Partial where
  entries := Setting.put name (.table []) p.entries
  part := some name

/-- Adds a key with its value. -/
def Partial.add (p : Partial) (key value : String) : Partial :=
  match p.part with
  | none => { p with entries := Setting.put key (.text value) p.entries }
  | some name =>
    let inner := ((Setting.find? name p.entries).getD .nil).entries
    { p with entries := Setting.put name (.table (Setting.put key (.text value) inner)) p.entries }

/-- Reads on; `fresh` says whether a line starts here. A comment must stand at the start of a
line. -/
def readFrom : Nat → Bool → Partial → List Char → Option (List (String × Setting))
  | 0, _, _, _ => none
  | fuel + 1, fresh, p, cs =>
    let gap := cs.takeWhile isBlank
    let fresh := gap.getLast?.elim fresh (· = '\n')
    match cs.drop gap.length with
    | [] => some p.entries
    | c :: rest =>
      if c = ';' || c = '#' then
        if fresh then readFrom fuel true p ((rest.dropWhile (· ≠ '\n')).drop 1) else none
      else if c = '[' then do
        let (name, rest) ← scanUntil [']'] false [] rest
        readFrom fuel false (p.enter (String.ofList (Text.trim name))) (rest.drop 1)
      else do
        let (key, rest) ← scanKey (c :: rest)
        let (value, rest) ← scanValue rest
        readFrom fuel false (p.add key value) rest

/-- The entries of a document. -/
def read? (cs : List Char) : Option (List (String × Setting)) :=
  readFrom (cs.length + 1) true {} cs

end SamplingFrame.Ini
