import SamplingFrame.Json.Numeral
import SamplingFrame.Json.Source
import SamplingFrame.Text.Scanner

/-!
# Reading documents

The source that a text holds. Reading never fails as such: where the text breaks the grammar the
source is cut off, and what is well formed but cannot be used is marked.
-/

namespace SamplingFrame.Source

/-- What reading one value gives: the value, and the rest of the text unless it breaks off. -/
abbrev Step := Source × Option (List Char)

/-- The characters that may stand between the parts of a document. -/
def isSpace (c : Char) : Bool := c = ' ' || c = '\n' || c = '\t' || c = '\r'

/-- A text without the space at its start. -/
def skipSpace (cs : List Char) : List Char := cs.dropWhile isSpace

/-- How many arrays and objects may stand within each other. -/
def maxDepth : Nat := 127

/-- The character that a one-letter escape stands for. -/
def plainEscape? (c : Char) : Option Char :=
  match c with
  | '"' => some '"'
  | '\\' => some '\\'
  | '/' => some '/'
  | 'b' => some '\x08'
  | 'f' => some '\x0c'
  | 'n' => some '\n'
  | 'r' => some '\r'
  | 't' => some '\t'
  | _ => none

/-- What has been read of a string: its characters backwards, a high surrogate that waits for its
low one, and whether every surrogate so far has found its partner. -/
structure Partial where
  reversed : List Char := []
  pending : Option Nat := none
  paired : Bool := true

/-- Adds a character. -/
def Partial.push (p : Partial) (c : Char) : Partial :=
  { reversed := c :: p.reversed, pending := none, paired := p.paired && p.pending.isNone }

/-- Adds a code unit of 16 bits. -/
def Partial.pushUnit (p : Partial) (n : Nat) : Partial :=
  match p.pending with
  | some high =>
    if 0xDC00 ≤ n && n ≤ 0xDFFF then
      { p with
        reversed := Char.ofNat (0x10000 + (high - 0xD800) * 0x400 + (n - 0xDC00)) :: p.reversed
        pending := none }
    else { p with pending := none, paired := false }
  | none =>
    if 0xD800 ≤ n && n ≤ 0xDBFF then { p with pending := some n }
    else if 0xDC00 ≤ n && n ≤ 0xDFFF then { p with paired := false }
    else { p with reversed := Char.ofNat n :: p.reversed }

/-- The string, unless a surrogate stands alone. -/
def Partial.finish (p : Partial) : Option String :=
  if p.paired && p.pending.isNone then some (String.ofList p.reversed.reverse) else none

/-- Reads a string after its opening quote; none if it breaks off. -/
def readString (p : Partial) : List Char → Option (Option String × List Char)
  | [] => none
  | '"' :: cs => some (p.finish, cs)
  | '\\' :: 'u' :: a :: b :: c :: d :: cs =>
    match Text.numberIn? 16 [a, b, c, d] with
    | some n => readString (p.pushUnit n) cs
    | none => none
  | '\\' :: c :: cs =>
    match plainEscape? c with
    | some e => readString (p.push e) cs
    | none => none
  | c :: cs => if c.toNat < 32 || c = '\\' then none else readString (p.push c) cs

/-- A run of digits and what follows it. -/
def spanDigits (cs : List Char) : List Char × List Char :=
  (cs.takeWhile Char.isDigit, cs.dropWhile Char.isDigit)

/-- The whole part of a number: one zero, or digits that do not start with zero. -/
def readWhole? (cs : List Char) : Option (List Char × List Char) :=
  match spanDigits cs with
  | ([], _) => none
  | ('0' :: _ :: _, _) => none
  | parts => some parts

/-- The digits after the point, if there is one. -/
def readPlaces? : List Char → Option (List Char × List Char)
  | '.' :: cs =>
    match spanDigits cs with
    | ([], _) => none
    | parts => some parts
  | cs => some ([], cs)

/-- The digits of an exponent as a number. -/
def readPower? (cs : List Char) : Option (Nat × List Char) :=
  match spanDigits cs with
  | ([], _) => none
  | (ds, rest) => some (Nat.ofDigitChars 10 ds 0, rest)

/-- The exponent, if there is one. -/
def readExponent? : List Char → Option (Option Int × List Char)
  | c :: cs =>
    if c = 'e' || c = 'E' then
      match cs with
      | '-' :: ds => (readPower? ds).map fun (n, rest) => (some (-(n : Int)), rest)
      | '+' :: ds => (readPower? ds).map fun (n, rest) => (some (n : Int), rest)
      | ds => (readPower? ds).map fun (n, rest) => (some (n : Int), rest)
    else some (none, c :: cs)
  | [] => some (none, [])

/-- Reads a number after its sign. -/
def readNumber (negative : Bool) (cs : List Char) : Step :=
  let parts := do
    let (whole, cs) ← readWhole? cs
    let (places, cs) ← readPlaces? cs
    let (exponent, cs) ← readExponent? cs
    let value := (Numeral.mk negative whole places exponent).value?
    return (value.elim .unusable .number, cs)
  match parts with
  | some (v, rest) => (v, some rest)
  | none => (.cut, none)

/-- Reads the rest of a word. -/
def readWord (word : String) (v : Source) (cs : List Char) : Step :=
  if word.toList.isPrefixOf cs then (v, some (cs.drop word.length)) else (.cut, none)

/-- An array or object that `depth` others stand around, marked if that is too many. -/
def limitDepth (depth : Nat) : Step → Step
  | (v, some rest) => (if depth < maxDepth then v else .unusable, some rest)
  | (v, none) => (if depth < maxDepth then v else .cut, none)

mutual

/-- Reads one value; `depth` arrays and objects stand around it. -/
def readValue : Nat → Nat → List Char → Step
  | 0, _, _ => (.cut, none)
  | fuel + 1, depth, cs =>
    match skipSpace cs with
    | [] => (.cut, none)
    | c :: cs =>
      if c = '"' then
        match readString {} cs with
        | some (some s, rest) => (.string s, some rest)
        | some (none, rest) => (.unusable, some rest)
        | none => (.cut, none)
      else if c = '[' then
        match skipSpace cs with
        | ']' :: rest => limitDepth depth (.array [], some rest)
        | rest => limitDepth depth (readItems fuel (depth + 1) [] rest)
      else if c = '\x7b' then
        match skipSpace cs with
        | '\x7d' :: rest => limitDepth depth (.object true [], some rest)
        | rest => limitDepth depth (readMembers fuel (depth + 1) [] rest)
      else if c = 'n' then readWord "ull" .null cs
      else if c = 't' then readWord "rue" (.boolean true) cs
      else if c = 'f' then readWord "alse" (.boolean false) cs
      else if c = '-' then readNumber true cs
      else readNumber false (c :: cs)

/-- Reads the items of an array from one item on; those before it are given backwards. -/
def readItems : Nat → Nat → List Source → List Char → Step
  | 0, _, _, _ => (.cut, none)
  | fuel + 1, depth, before, cs =>
    match readValue fuel depth cs with
    | (v, none) => (.array (v :: before).reverse, none)
    | (v, some rest) =>
      match skipSpace rest with
      | ',' :: rest => readItems fuel depth (v :: before) rest
      | ']' :: rest => (.array (v :: before).reverse, some rest)
      | _ => (.array (.cut :: v :: before).reverse, none)

/-- Reads the members of an object from one member on; those before it are given backwards. -/
def readMembers : Nat → Nat → List (Option String × Source) → List Char → Step
  | 0, _, _, _ => (.cut, none)
  | fuel + 1, depth, before, cs =>
    let broken : Step := (.object true ((none, .cut) :: before).reverse, none)
    match skipSpace cs with
    | '"' :: cs =>
      match readString {} cs with
      | none => broken
      | some (key, cs) =>
        match skipSpace cs with
        | ':' :: cs =>
          match readValue fuel depth cs with
          | (v, none) => (.object true ((key, v) :: before).reverse, none)
          | (v, some rest) =>
            match skipSpace rest with
            | ',' :: rest => readMembers fuel depth ((key, v) :: before) rest
            | '\x7d' :: rest => (.object true ((key, v) :: before).reverse, some rest)
            | _ => (.object true ((none, .cut) :: (key, v) :: before).reverse, none)
        | _ => (.object true ((key, .cut) :: before).reverse, none)
    | _ => broken

end

/-- The source that a text holds, and whether nothing but space follows it. -/
def ofText (cs : List Char) : Source × Bool :=
  match readValue (2 * cs.length + 2) 0 cs with
  | (v, some rest) => (v, (skipSpace rest).isEmpty)
  | (v, none) => (v, false)

end SamplingFrame.Source
