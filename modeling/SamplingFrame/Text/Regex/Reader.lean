import SamplingFrame.Text.Letter
import SamplingFrame.Text.Regex
import SamplingFrame.Text.Scanner

/-!
# Reading regular expressions

The written form of regular expressions, with groups, modes and sets in brackets. No tables of
letters are at hand here, so sets that depend on them are refused unless an expression keeps to
ASCII: letters in any case, and the named sets of digits, blanks and word characters. There are no
counted repetitions.
-/

namespace SamplingFrame.Text.Regex

/-- How the rest of a group is read. -/
structure Mode where
  /-- Letters stand for both of their cases. -/
  anyCase : Bool := false
  /-- Anchors belong to lines. -/
  lines : Bool := false
  /-- A point stands for line breaks as well. -/
  dotAll : Bool := false
  /-- Repetitions take little unless they are marked. -/
  lazyFirst : Bool := false
  /-- Carriage returns break lines. -/
  returns : Bool := false
  /-- Blanks and comments do not count. -/
  verbose : Bool := false
  /-- Sets keep to ASCII. -/
  ascii : Bool := false
  deriving DecidableEq, Repr

namespace Mode

/-- Switches what a letter stands for on or off. -/
def switch? (on : Bool) (m : Mode) (c : Char) : Option Mode :=
  match c with
  | 'i' => some { m with anyCase := on }
  | 'm' => some { m with lines := on }
  | 's' => some { m with dotAll := on }
  | 'U' => some { m with lazyFirst := on }
  | 'R' => some { m with returns := on }
  | 'x' => some { m with verbose := on }
  | 'u' => some { m with ascii := !on }
  | _ => none

/-- Letters up to a colon or a closing bracket, which switch modes on, and after a hyphen off. Each
may be given once. -/
def scanSwitches (m : Mode) : Scanner Mode := fun cs => do
  let word := cs.takeWhile fun c => c ≠ ':' && c ≠ ')'
  guard (word.eraseDups == word && word.getLast? != some '-')
  let on := word.takeWhile (· ≠ '-')
  let m ← on.foldlM (switch? true) m
  let m ← (word.drop (on.length + 1)).foldlM (switch? false) m
  return (m, cs.drop word.length)

/-- A mode that is set for the rest of a group. -/
def scanModeChange (m : Mode) : Scanner Mode
  | '(' :: '?' :: cs => do
    let (changed, rest) ← m.scanSwitches cs
    let (_, rest) ← scanChar ')' rest
    guard (cs.head? != some ')')
    return (changed, rest)
  | _ => none

/-- Skips comments and blanks if they do not count. -/
def skipSpace (m : Mode) : Nat → List Char → List Char
  | 0, cs => cs
  | fuel + 1, cs =>
    if !m.verbose then cs
    else match trimStart cs with
      | '#' :: rest => skipSpace m fuel (rest.dropWhile (· ≠ '\n'))
      | rest => rest

/-- A text without comments and blanks at its start if they do not count. -/
def skip (m : Mode) (cs : List Char) : List Char := m.skipSpace (cs.length + 1) cs

/-- The set of one character, if that can be told. -/
def single? (m : Mode) (c : Char) : Option Letters :=
  if m.anyCase && !m.ascii then none else some (.range m.anyCase c.toNat c.toNat)

/-- The set that a point stands for. -/
def point? (m : Mode) : Option Letters :=
  if m.ascii then none
  else if m.dotAll then some .all
  else if m.returns then some (.others (.ofRanges false [(10, 10), (13, 13)]))
  else some (.others (.range false 10 10))

/-- The boundary that an anchor stands for. -/
def anchor (m : Mode) (atStart : Bool) : Boundary :=
  match m.lines, atStart with
  | true, true => .lineStart m.returns
  | true, false => .lineEnd m.returns
  | false, true => .textStart
  | false, false => .textEnd

/-- A repetition, lazy if it is marked or repetitions are lazy by themselves, but not both. -/
def isGreedy (m : Mode) (marked : Bool) : Bool := marked == m.lazyFirst

end Mode

/-! ### Sets -/

/-- The ranges of the characters of a named set. -/
def namedRanges? : List Char → Option (List (Nat × Nat)) := fun name =>
  match String.ofList name with
  | "alnum" => some [(48, 57), (65, 90), (97, 122)]
  | "alpha" => some [(65, 90), (97, 122)]
  | "ascii" => some [(0, 127)]
  | "blank" => some [(9, 9), (32, 32)]
  | "cntrl" => some [(0, 31), (127, 127)]
  | "digit" => some [(48, 57)]
  | "graph" => some [(33, 126)]
  | "lower" => some [(97, 122)]
  | "print" => some [(32, 126)]
  | "punct" => some [(33, 47), (58, 64), (91, 96), (123, 126)]
  | "space" => some [(9, 13), (32, 32)]
  | "upper" => some [(65, 90)]
  | "word" => some [(48, 57), (65, 90), (95, 95), (97, 122)]
  | "xdigit" => some [(48, 57), (65, 70), (97, 102)]
  | _ => none

/-- The character that an escape stands for, after its backslash. -/
def scanEscape : Scanner Char
  | 'a' :: cs => some ('\x07', cs)
  | 'f' :: cs => some ('\x0c', cs)
  | 't' :: cs => some ('\t', cs)
  | 'n' :: cs => some ('\n', cs)
  | 'r' :: cs => some ('\r', cs)
  | 'v' :: cs => some ('\x0b', cs)
  | 'x' :: cs => scanCodePoint 2 cs
  | 'u' :: cs => scanCodePoint 4 cs
  | 'U' :: cs => scanCodePoint 8 cs
  | c :: cs =>
    if c.toNat < 128 && !c.isAlphanum && c ≠ '<' && c ≠ '>' then some (c, cs) else none
  | [] => none

/-- The set of digits, blanks or word characters of ASCII. -/
def scanShort (m : Mode) : Scanner Letters
  | 'd' :: cs => if m.ascii then some (.range false 48 57, cs) else none
  | 's' :: cs => if m.ascii then some (.ofRanges false [(9, 13), (32, 32)], cs) else none
  | 'w' :: cs =>
    if m.ascii then some (.ofRanges false [(48, 57), (65, 90), (95, 95), (97, 122)], cs) else none
  | _ => none

/-- A character of a set in brackets. -/
def scanMember (m : Mode) : Scanner Nat := fun cs => do
  let (c, rest) ← match cs with
    | '\\' :: cs => scanEscape cs
    | c :: cs => some (c, cs)
    | [] => none
  guard (!m.ascii || c.toNat < 128)
  return (c.toNat, rest)

/-- A range of characters of a set in brackets, or one of them, or a short set. -/
def scanRange (m : Mode) : Scanner Letters := fun cs =>
  let short? := match cs with
    | '\\' :: rest => scanShort m rest
    | _ => none
  match short? with
  | some (set, rest) =>
    match m.skip rest with
    | '-' :: more =>
      let after := (m.skip more).head?
      if after = some ']' || after = some '-' then some (set, rest) else none
    | _ => some (set, rest)
  | none => do
    guard (!m.anyCase || m.ascii)
    let (first, rest) ← scanMember m cs
    match m.skip rest with
    | '-' :: more =>
      let more := m.skip more
      if more.head? = some ']' || more.head? = some '-' then
        return (.range m.anyCase first first, rest)
      else do
        let (last, rest) ← scanMember m more
        guard (first ≤ last)
        return (.range m.anyCase first last, rest)
    | _ => return (.range m.anyCase first first, rest)

/-- A named set within a set, after its opening bracket. -/
def scanNamed (m : Mode) : Scanner Letters
  | ':' :: cs => do
    let negated := cs.head? == some '^'
    let cs := if negated then cs.drop 1 else cs
    let name := cs.takeWhile (· ≠ ':')
    let ranges ← namedRanges? name
    let (_, rest) ← scanChar ':' (cs.drop name.length)
    let (_, rest) ← scanChar ']' rest
    let set := Letters.ofRanges m.anyCase ranges
    return (if negated then .others set else set, rest)
  | _ => none

/-- The hyphens, or the closing bracket, that stand for themselves at the start of a set. -/
def scanFirst (m : Mode) (cs : List Char) : Letters × List Char :=
  let hyphens := cs.takeWhile fun c => c = '-' || (m.verbose && isBlank c)
  if hyphens.contains '-' then (.range false 45 45, cs.drop hyphens.length)
  else match cs with
    | ']' :: rest => (.range false 93 93, rest)
    | _ => (.empty, cs)

mutual

/-- A set in brackets, after the opening one. -/
def scanSet : Nat → Mode → Scanner Letters
  | 0, _, _ => none
  | fuel + 1, m, cs => do
    let cs := m.skip cs
    let negated := cs.head? == some '^'
    guard (!(negated && m.ascii) && (!m.anyCase || m.ascii))
    let (first, rest) := scanFirst m (m.skip (if negated then cs.drop 1 else cs))
    let (set, rest) ← scanMembers fuel m id first rest
    return (if negated then .others set else set, rest)

/-- The members of a set, up to its closing bracket. They are gathered in `set`, and `combine` says
what becomes of them in the end. -/
def scanMembers : Nat → Mode → (Letters → Letters) → Letters → Scanner Letters
  | 0, _, _, _, _ => none
  | fuel + 1, m, combine, set, cs =>
    match m.skip cs with
    | ']' :: rest => some (combine set, rest)
    | '[' :: rest => do
      let (inner, rest) ← (scanNamed m rest).or (scanSet fuel m rest)
      scanMembers fuel m combine (.either set inner) rest
    | '&' :: '&' :: rest => scanMembers fuel m (.inBoth (combine set)) .empty rest
    | '-' :: '-' :: rest => scanMembers fuel m (.without (combine set)) .empty rest
    | '~' :: '~' :: rest => scanMembers fuel m (.inOne (combine set)) .empty rest
    | cs => do
      let (range, rest) ← scanRange m cs
      scanMembers fuel m combine (.either set range) rest

end

/-! ### Expressions -/

/-- Whether a character may stand in the name of a group. -/
def isNameChar (c : Char) : Bool :=
  c = '_' || c = '.' || c = '[' || c = ']' || isAlphanumeric c

/-- The start of a group after its opening bracket, which may name it or set its mode. -/
def scanGroupStart (m : Mode) (cs : List Char) : Option (Mode × List Char) :=
  match m.skip cs with
  | '?' :: 'P' :: '<' :: cs | '?' :: '<' :: cs => do
    let name := cs.takeWhile isNameChar
    let first ← name.head?
    guard (first = '_' || (isAlphanumeric first && !first.isDigit))
    let (_, rest) ← scanChar '>' (cs.drop name.length)
    return (m, rest)
  | '?' :: cs => do
    let (changed, rest) ← m.scanSwitches cs
    let (_, rest) ← scanChar ':' rest
    return (changed, rest)
  | cs => some (m, cs)

/-- Applies the marks of repetition that follow an expression. -/
def scanRepeats (m : Mode) : Nat → Regex → List Char → Regex × List Char
  | 0, r, cs => (r, cs)
  | fuel + 1, r, cs =>
    match m.skip cs with
    | '*' :: '?' :: rest => scanRepeats m fuel (.star (m.isGreedy true) r) rest
    | '*' :: rest => scanRepeats m fuel (.star (m.isGreedy false) r) rest
    | '+' :: '?' :: rest => scanRepeats m fuel (.repeated (m.isGreedy true) r) rest
    | '+' :: rest => scanRepeats m fuel (.repeated (m.isGreedy false) r) rest
    | '?' :: '?' :: rest => scanRepeats m fuel (.optional (m.isGreedy true) r) rest
    | '?' :: rest => scanRepeats m fuel (.optional (m.isGreedy false) r) rest
    | cs => (r, cs)

mutual

/-- Alternatives, up to the end of the group. -/
def scanEither : Nat → Mode → Scanner Regex
  | 0, _, _ => none
  | fuel + 1, m, cs => do
    let ((first, m), rest) ← scanBoth fuel m cs
    match rest with
    | '|' :: rest => do
      let (second, rest) ← scanEither fuel m rest
      return (.either first second, rest)
    | rest => return (first, rest)

/-- Expressions one after the other, up to the end of the alternative, and the mode in which what
follows is read. -/
def scanBoth : Nat → Mode → Scanner (Regex × Mode)
  | 0, _, _ => none
  | fuel + 1, m, cs =>
    let cs := m.skip cs
    match cs, m.scanModeChange cs with
    | _, some (m, rest) => scanBoth fuel m rest
    | [], none | '|' :: _, none | ')' :: _, none => some ((.nothing, m), cs)
    | cs, none => do
      let (one, rest) ← scanOne fuel m cs
      let (one, rest) := scanRepeats m rest.length one rest
      let ((more, m), rest) ← scanBoth fuel m rest
      return ((.both one more, m), rest)

/-- One expression without marks of repetition. -/
def scanOne : Nat → Mode → Scanner Regex
  | 0, _, _ => none
  | fuel + 1, m, cs =>
    match cs with
    | '(' :: rest => do
      let (inside, rest) ← scanGroupStart m rest
      let (inner, rest) ← scanEither fuel inside rest
      let (_, rest) ← scanChar ')' rest
      return (inner, rest)
    | '[' :: rest => (scanSet (2 * rest.length + 1) m rest).map fun (s, rest) => (.letter s, rest)
    | '.' :: rest => m.point?.map fun s => (.letter s, rest)
    | '^' :: rest => some (.boundary (m.anchor true), rest)
    | '$' :: rest => some (.boundary (m.anchor false), rest)
    | '\\' :: 'A' :: rest => some (.boundary .textStart, rest)
    | '\\' :: 'z' :: rest => some (.boundary .textEnd, rest)
    | '\\' :: rest =>
      match scanShort m rest with
      | some (s, rest) => some (.letter s, rest)
      | none => do
        let (c, rest) ← scanEscape rest
        return (.letter (← m.single? c), rest)
    | c :: rest =>
      if c = '*' || c = '+' || c = '?' || c = '\x7b' then none
      else m.single? c |>.map fun s => (.letter s, rest)
    | [] => none

end

/-- The regular expression that a text stands for, if it is well formed. -/
def ofText? (cs : List Char) : Option Regex :=
  match scanEither (3 * cs.length + 3) {} cs with
  | some (r, []) => some r
  | _ => none

end SamplingFrame.Text.Regex
