import SamplingFrame.Log.Event
import SamplingFrame.Number.Floating
import SamplingFrame.Text.Blank
import SamplingFrame.Text.Letter
import SamplingFrame.Text.Regex.Program
import SamplingFrame.Text.Regex.Reader

/-!
# Log directives

A directive says how much is logged of a part of the program, of a piece of work, or of what has a
value of some name. It is written `target[work{name=value}]=level`, and every part but one may be
missing.
-/

namespace SamplingFrame

/-- How much is logged: nothing, or what is at least as important as a level. -/
inductive LogLimit where
  | off
  | upTo (level : LogLevel)
  deriving DecidableEq, Repr

namespace LogLimit

/-- The rank up to which events are logged. -/
def rank : LogLimit → Nat
  | .off => 0
  | .upTo level => level.rank

/-- All limits, by rank. -/
def all : List LogLimit :=
  [.off, .upTo .error, .upTo .warn, .upTo .info, .upTo .debug, .upTo .trace]

/-- The name of a limit. -/
def name : LogLimit → String
  | .off => "off"
  | .upTo .error => "error"
  | .upTo .warn => "warn"
  | .upTo .info => "info"
  | .upTo .debug => "debug"
  | .upTo .trace => "trace"

/-- The limit of a name in any case, or of a rank. -/
def ofText? (cs : List Char) : Option LogLimit :=
  match Whole.readUnsigned Whole.maxUnsigned cs with
  | .ok n => all[n]?
  | .error _ => all.find? (·.name.toList == cs.map Char.toLower)

/-- Whether something as important as a level is logged. -/
def admits (limit : LogLimit) (level : LogLevel) : Bool := level.rank ≤ limit.rank

/-- The limit of a name is found again. -/
theorem ofText?_name (limit : LogLimit) : ofText? limit.name.toList = some limit := by
  rcases limit with _ | ⟨_ | _ | _ | _ | _⟩ <;> decide +kernel

end LogLimit

namespace Log

/-- What a named value is compared with. -/
inductive Pattern where
  | boolean (b : Bool)
  | count (n : Nat)
  | integer (n : Int)
  | real (x : Floating)
  /-- A text that matches a regular expression. -/
  | text (expression : String)
  deriving DecidableEq, Repr

/-- The pattern that a text stands for: the first of these that it can be read as. -/
def Pattern.ofText? (cs : List Char) : Option Pattern :=
  if cs = "true".toList then some (.boolean true)
  else if cs = "false".toList then some (.boolean false)
  else match Whole.readUnsigned Whole.maxUnsigned cs, Whole.readSigned cs, Floating.ofText? cs with
    | .ok n, _, _ => some (.count n)
    | _, .ok n, _ => some (.integer n.toInt)
    | _, _, some x => some (.real x)
    | _, _, none => (Text.Regex.ofText? cs).map fun _ => .text (String.ofList cs)

/-- The text that shows a pattern. -/
def Pattern.render : Pattern → String
  | .boolean b => if b then "true" else "false"
  | .count n => String.ofList (Whole.digits n)
  | .integer n => String.ofList (Whole.render n)
  | .real x => x.render
  | .text s => s

/-- The place of a kind of pattern in the order of patterns. -/
def Pattern.rank : Pattern → Nat
  | .boolean _ => 0
  | .real .nan => 2
  | .real _ => 1
  | .count _ => 3
  | .integer _ => 4
  | .text _ => 5

/-- The order of patterns: by kind, and then by value. -/
def Pattern.compare (a b : Pattern) : Ordering :=
  (Ord.compare a.rank b.rank).then <|
    match a, b with
    | .boolean x, .boolean y => Ord.compare x.toNat y.toNat
    | .count n, .count m => Ord.compare n m
    | .integer n, .integer m => Ord.compare n m
    | .real x, .real y => x.compare y
    | .text s, .text t => Ord.compare s t
    | _, _ => .eq

/-- Whether a value fits a pattern. -/
def Pattern.fits : Pattern → Json → Bool
  | .boolean b, .boolean c => b == c
  | .count n, .number (.integer m) => (n : Int) == m
  | .text s, .string t => (Text.Regex.ofText? s.toList).any (·.matches? t.toList)
  | _, _ => false

/-- What is asked of a named value: that there is one, or also that it fits a pattern. -/
structure Demand where
  name : String
  pattern : Option Pattern
  deriving DecidableEq, Repr

/-- The demand that a text stands for. Of several equals signs the first two part it, and what
follows the second is dropped. -/
def Demand.ofText? (cs : List Char) : Option Demand :=
  let name := cs.takeWhile (· ≠ '=')
  match cs.drop name.length with
  | [] => some ⟨String.ofList name, none⟩
  | _ :: rest =>
    (Pattern.ofText? (rest.takeWhile (· ≠ '='))).map fun p => ⟨String.ofList name, some p⟩

/-- The text that shows a demand. -/
def Demand.render (d : Demand) : String :=
  d.name ++ (d.pattern.elim "" fun p => "=" ++ p.render)

/-- The order of demands: those with a pattern come last, and then by name and pattern. -/
def Demand.compare (a b : Demand) : Ordering :=
  (Ord.compare a.pattern.isSome.toNat b.pattern.isSome.toNat).then <|
    (Ord.compare a.name b.name).then <|
      match a.pattern, b.pattern with
      | some p, some q => p.compare q
      | _, _ => .eq

/-- How much is logged of what. -/
structure Directive where
  /-- How much is logged. -/
  limit : LogLimit := .upTo .trace
  /-- What the name of the part of the program starts with. -/
  target : Option String := none
  /-- The name of the work. -/
  work : Option String := none
  /-- What is asked of a value. -/
  demand : Option Demand := none
  deriving DecidableEq, Repr

namespace Directive

/-- The part of a directive that is being read, with the place where it starts. -/
inductive Reading where
  | start
  | target (start : Nat)
  | work (start : Nat)
  | demand (start : Nat)
  | afterDemand
  | afterBracket
  | limit (start : Nat)
  deriving DecidableEq, Repr

/-- Whether a character may be the first of a directive that has a target or a limit. -/
def isFirst (c : Char) : Bool := c = '-' || c = ':' || c = '_' || Text.isAlphanumeric c

/-- The directive and the reading after one more character, which stands at a place. `slice` gives
the text between two places. -/
def advance (slice : Nat → Nat → List Char) (place : Nat) (c : Char) :
    Directive × Reading → Option (Directive × Reading)
  | (d, .start) =>
    if c = '[' then some (d, .work (place + 1))
    else if isFirst c then some (d, .target place)
    else none
  | (d, .target start) =>
    let target := some (String.ofList (slice start place))
    if c = '=' then some ({ d with target }, .limit (place + 1))
    else if c = '[' then some ({ d with target }, .work (place + 1))
    else some (d, .target start)
  | (d, .work start) =>
    let work := slice start place
    if c = ']' then some ({ d with work := some (String.ofList work) }, .afterBracket)
    else if c = '\x7b' then
      let work := if work.isEmpty then none else some (String.ofList work)
      some ({ d with work }, .demand (place + 1))
    else some (d, .work start)
  | (d, .demand start) =>
    if c = '\x7d' then
      let demand := slice start place
      if demand.isEmpty then none
      else (Demand.ofText? demand).map fun m => ({ d with demand := some m }, .afterDemand)
    else some (d, .demand start)
  | (d, .afterDemand) => if c = ']' then some (d, .afterBracket) else none
  | (d, .afterBracket) => if c = '=' then some (d, .limit (place + 1)) else none
  | (d, .limit start) => some (d, .limit start)

/-- The directive of a text that has been read to its end; `rest` gives the text from a place on.
A target alone that is the name of a limit is one, and a limit may be left out. -/
def finish? (rest : Nat → List Char) : Directive × Reading → Option Directive
  | (d, .target start) =>
    let text := rest start
    match LogLimit.ofText? text with
    | some limit => some { d with limit }
    | none => some { d with target := some (String.ofList text) }
  | (d, .limit start) =>
    let text := rest start
    if text.isEmpty then some d
    else (LogLimit.ofText? text).map fun limit => { d with limit }
  | (d, .afterBracket) => some d
  | _ => none

/-- The directive that a text stands for. The text is read without the blanks at its ends, but its
parts are cut out of the whole text at the places that they have in the trimmed one. -/
def ofText? (cs : List Char) : Option Directive := do
  let slice (start stop : Nat) : List Char := (cs.take stop).drop start
  let read ← (Text.trim cs).zipIdx.foldlM
    (fun read (c, place) => advance slice place c read) (({} : Directive), Reading.start)
  finish? cs.drop read

/-- Comparison of parts that may be missing: a missing part comes first. -/
def comparePart {α : Type} (compare : α → α → Ordering) : Option α → Option α → Ordering
  | none, none => .eq
  | none, some _ => .lt
  | some _, none => .gt
  | some a, some b => compare a b

/-- How specific directives are: one with a longer target is more specific, then one that names
work, then one that makes a demand; the rest is settled by the parts themselves. Limits do not
count. -/
def compare (a b : Directive) : Ordering :=
  (comparePart (fun s t => Ord.compare s.utf8ByteSize t.utf8ByteSize) a.target b.target).then <|
    (Ord.compare a.work.isSome.toNat b.work.isSome.toNat).then <|
      (Ord.compare a.demand.isSome.toNat b.demand.isSome.toNat).then <|
        (comparePart Ord.compare a.target b.target).then <|
          (comparePart Ord.compare a.work b.work).then <|
            comparePart Demand.compare a.demand b.demand

/-- The text that shows a directive. -/
def render (d : Directive) : String :=
  let demand := d.demand.elim "" fun demand => "\x7b" ++ demand.render ++ "\x7d"
  let brackets :=
    if d.work.isSome || d.demand.isSome then "[" ++ d.work.getD "" ++ demand ++ "]" else ""
  let subject := d.target.getD "" ++ brackets
  subject ++ (if d.target.isSome || d.work.isSome || d.demand.isSome then "=" else "") ++
    d.limit.name

end Directive

end Log

end SamplingFrame
