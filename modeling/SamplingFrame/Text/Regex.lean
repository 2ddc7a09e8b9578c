import SamplingFrame.Text.Blank

/-!
# Regular expressions

Patterns of texts: sets of characters, boundaries, alternatives, and repetition that takes as much
or as little as it can. Of the ways in which a text can match, some are preferred to others.
-/

namespace SamplingFrame.Text

/-- A set of characters. -/
inductive Letters where
  | empty
  /-- The characters from one code point to another; `anyCase` adds the other case of the letters
  that have one in ASCII. -/
  | range (anyCase : Bool) (first last : Nat)
  /-- All characters that do not belong to a set. -/
  | others (s : Letters)
  | either (s t : Letters)
  | inBoth (s t : Letters)
  /-- What belongs to the first set alone. -/
  | without (s t : Letters)
  /-- What belongs to just one of two sets. -/
  | inOne (s t : Letters)
  deriving DecidableEq, Repr

namespace Letters

/-- Whether a character belongs to a set. -/
def holds : Letters → Char → Bool
  | empty, _ => false
  | range anyCase first last, c =>
    let within (c : Char) : Bool := first ≤ c.toNat && c.toNat ≤ last
    within c || (anyCase && (within c.toLower || within c.toUpper))
  | others s, c => !s.holds c
  | either s t, c => s.holds c || t.holds c
  | inBoth s t, c => s.holds c && t.holds c
  | without s t, c => s.holds c && !t.holds c
  | inOne s t, c => s.holds c != t.holds c

/-- The set of all characters. -/
def all : Letters := .others .empty

/-- The characters in any of some ranges of code points. -/
def ofRanges (anyCase : Bool) (ranges : List (Nat × Nat)) : Letters :=
  ranges.foldl (fun s (first, last) => .either s (.range anyCase first last)) .empty

end Letters

/-- A place between two characters. Lines end with line feeds, and if `returns` is set, with
carriage returns as well. -/
inductive Boundary where
  | textStart
  | textEnd
  | lineStart (returns : Bool)
  | lineEnd (returns : Bool)
  deriving DecidableEq, Repr

/-- Whether the place between two characters is a boundary; at the ends of a text one of them is
missing. -/
def Boundary.holds (before after : Option Char) : Boundary → Bool
  | textStart => before.isNone
  | textEnd => after.isNone
  | lineStart returns =>
    before.isNone || before == some '\n' ||
      (returns && before == some '\r' && after != some '\n')
  | lineEnd returns =>
    after.isNone || (after == some '\n' && !(returns && before == some '\r')) ||
      (returns && after == some '\r')

/-- A regular expression. -/
inductive Regex where
  /-- The empty text. -/
  | nothing
  /-- One character of a set. -/
  | letter (s : Letters)
  /-- The empty text at a boundary. -/
  | boundary (b : Boundary)
  | both (first second : Regex)
  /-- Alternatives, the preferred one first. -/
  | either (first second : Regex)
  /-- At most once; a greedy repetition prefers to take more. -/
  | optional (greedy : Bool) (inner : Regex)
  /-- At least once. -/
  | repeated (greedy : Bool) (inner : Regex)
  deriving DecidableEq, Repr

/-- Any number of times. -/
def Regex.star (greedy : Bool) (inner : Regex) : Regex := .optional greedy (.repeated greedy inner)

end SamplingFrame.Text
