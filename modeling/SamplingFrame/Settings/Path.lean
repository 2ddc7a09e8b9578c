import SamplingFrame.Settings.Value

/-!
# Paths to settings

A key may name a place deep in a configuration: names of tables with points between them, and
numbers of list items in brackets. A value that is set there makes room for itself, so whatever
stands in the way gives way to a table or a list.
-/

namespace SamplingFrame.Settings

/-- A step of a path. -/
inductive Step where
  | key (name : String)
  /-- The item of a list; negative numbers count from its end. -/
  | index (i : Int)
  deriving DecidableEq, Repr

/-- Whether a character may stand in the name of a step. -/
def isNameChar (c : Char) : Bool := c.isAlphanum || c = '_' || c = '-'

/-- Splits a text into the name at its start and the rest. -/
def splitName? (cs : List Char) : Option (Step × List Char) :=
  let name := cs.takeWhile isNameChar
  if name.isEmpty then none else some (.key (String.ofList name), cs.drop name.length)

/-- Splits a text into the number at its start, which may have blanks around it and ends at a
bracket, and the rest. -/
def splitIndex? (cs : List Char) : Option (Step × List Char) :=
  let isBlank (c : Char) : Bool := c = ' ' || c = '\t'
  let inner := cs.takeWhile (· ≠ ']')
  let digits := ((inner.dropWhile isBlank).reverse.dropWhile isBlank).reverse
  match digits, cs.drop inner.length, Whole.readSigned digits with
  | '+' :: _, _, _ => none
  | _, ']' :: rest, .ok i => some (.index i.toInt, rest)
  | _, _, _ => none

/-- The steps that follow the first one. -/
def readSteps? : Nat → List Char → Option (List Step)
  | _, [] => some []
  | fuel + 1, '.' :: cs => do
    let (step, rest) ← splitName? cs
    return step :: (← readSteps? fuel rest)
  | fuel + 1, '[' :: cs => do
    let (step, rest) ← splitIndex? cs
    return step :: (← readSteps? fuel rest)
  | _, _ => none

/-- The path that a key stands for; a key of any other form stands for itself. -/
def pathOf (key : List Char) : List Step :=
  let path? := do
    let (step, rest) ← splitName? key
    return step :: (← readSteps? rest.length rest)
  path?.getD [.key (String.ofList key)]

/-- Where an item of a list of `n` items is: how many items are missing in front of the list, and
how many stand before it then. -/
def position (i : Int) (n : Nat) : Nat × Nat :=
  if 0 ≤ i then (0, i.natAbs)
  else if i.natAbs ≤ n then (0, n - i.natAbs)
  else (i.natAbs - n, 0)

/-- Changes an item of a list, after filling up what is missing with nothing. -/
def changeItem (change : Setting → Setting) (i : Int) (items : List Setting) : List Setting :=
  let (missing, index) := position i items.length
  let items := List.replicate missing .nil ++ items
  (items ++ List.replicate (index + 1 - items.length) .nil).modify index change

/-- Lays a value over what stands at the end of a path. -/
def setAt (later : Setting) : List Step → Setting → Setting
  | [], earlier => earlier.override later
  | .key name :: path, earlier =>
    let inner := (Setting.find? name earlier.entries).getD .nil
    .table (Setting.put name (setAt later path inner) earlier.entries)
  | .index i :: path, earlier => .list (changeItem (setAt later path) i earlier.items)

end SamplingFrame.Settings
