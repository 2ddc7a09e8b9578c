import SamplingFrame.Text.Regex

/-!
# Matching regular expressions

An expression is laid out as a program, which a text is read with in one pass. Several places of
the program are held at a time, the preferred ones first, and a place is never held twice. Once a
way of matching has come to its end, those that are less preferred are given up.
-/

namespace SamplingFrame.Text

/-- A step of a program. Steps know the places of those that follow them. -/
inductive Instruction where
  /-- The expression has been matched. -/
  | accept
  /-- Takes a character of a set. -/
  | take (s : Letters) (next : Nat)
  | check (b : Boundary) (next : Nat)
  | fork (preferred other : Nat)
  | proceed (next : Nat)
  deriving DecidableEq, Repr

namespace Regex

/-- How many instructions an expression is laid out in. -/
def size : Regex → Nat
  | nothing | letter _ | boundary _ => 1
  | both a b => a.size + b.size
  | either a b => a.size + b.size + 1
  | optional _ a | repeated _ a => a.size + 1

/-- The instructions of an expression whose first one is at `start`; `next` follows them. -/
def code (start next : Nat) : Regex → List Instruction
  | nothing => [.proceed next]
  | letter s => [.take s next]
  | boundary b => [.check b next]
  | both a b =>
    let middle := start + a.size
    a.code start middle ++ b.code middle next
  | either a b =>
    let other := start + 1 + a.size
    .fork (start + 1) other :: (a.code (start + 1) next ++ b.code other next)
  | optional greedy a =>
    let fork := if greedy then Instruction.fork (start + 1) next else .fork next (start + 1)
    fork :: a.code (start + 1) next
  | repeated greedy a =>
    a.code start (start + a.size) ++
      [if greedy then Instruction.fork start next else .fork next start]

/-- The program that looks for an expression anywhere in a text, the earlier the better. It starts
with its second instruction and ends with its first one. -/
def program (r : Regex) : Array Instruction :=
  (.accept :: code 1 0 (.both (.star false (.letter .all)) r)).toArray

end Regex

namespace Instruction

/-- Adds those places to the ones seen, the last one first, that are reached from a place without
taking a character. -/
def reach (p : Array Instruction) (before after : Option Char) :
    Nat → List Nat → Nat → List Nat
  | 0, seen, _ => seen
  | fuel + 1, seen, place =>
    if seen.contains place then seen
    else
      let seen := place :: seen
      match p[place]? with
      | some (fork preferred other) =>
        reach p before after fuel (reach p before after fuel seen preferred) other
      | some (proceed next) => reach p before after fuel seen next
      | some (check b next) =>
        if b.holds before after then reach p before after fuel seen next else seen
      | _ => seen

/-- All places that are reached from some without taking a character, the preferred ones first. -/
def reachAll (p : Array Instruction) (before after : Option Char) (places : List Nat) : List Nat :=
  (places.foldl (reach p before after (p.size + 1)) []).reverse

/-- The places that follow after a character has been taken, up to the first way of matching that
has come to its end. -/
def takeFrom (p : Array Instruction) (c : Char) : List Nat → List Nat
  | [] => []
  | place :: places =>
    match p[place]? with
    | some accept => []
    | some (take s next) => if s.holds c then next :: takeFrom p c places else takeFrom p c places
    | _ => takeFrom p c places

/-- Whether a program that has come to some places ends a match where the text ends. -/
def endsMatch (p : Array Instruction) (before : Option Char) : List Nat → List Char → Bool
  | places, [] => (reachAll p before none places).any fun place => p[place]? == some accept
  | places, c :: cs =>
    endsMatch p (some c) (takeFrom p c (reachAll p before (some c) places)) cs

end Instruction

/-- Whether the first match in a text, by preference, ends where the text ends. -/
def Regex.matches? (r : Regex) (cs : List Char) : Bool :=
  Instruction.endsMatch r.program none [1] cs

end SamplingFrame.Text
