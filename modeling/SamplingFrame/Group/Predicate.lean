import SamplingFrame.Group
import SamplingFrame.Test

/-!
# The predicate of a group

A group stands for the strict left fold of its terms, rules before subgroups. Faults are looked for
in the order in which the group is written; a term's contents come before its connective.
-/

namespace SamplingFrame

namespace Group

/-- Joins the next term of a sequence with what stands before it. -/
def joinNext (place : Place) (index : Nat) (before : Option (Predicate Test))
    (connective : Option Connective) (next : Predicate Test) : Except Fault (Predicate Test) :=
  match before, connective with
  | none, none => .ok next
  | some p, some c => .ok (.join c p next)
  | none, some _ => .error (.leadingConnective place)
  | some _, none => .error (.missingConnective place index)

/-- Joins rules, the first of which has the given index. -/
def joinRules (path : List Nat) : Nat → Option (Predicate Test) → List (Term Rule) →
    Except Fault (Option (Predicate Test))
  | _, before, [] => .ok before
  | i, before, ⟨r, c⟩ :: ts => do
    let t ← r.test
    let p ← joinNext (.group path .rules) i before c (.test t)
    joinRules path (i + 1) (some p) ts

mutual

/-- The predicate of the group that is reached by a path. -/
def predicateAt (path : List Nat) : Group → Except Fault (Predicate Test)
  | mk rules groups => do
    let before ← joinRules path 0 none rules
    let all ← joinGroups path 0 before groups
    return all.getD .always

/-- Joins subgroups, the first of which has the given index. -/
def joinGroups (path : List Nat) : Nat → Option (Predicate Test) → List (Term Group) →
    Except Fault (Option (Predicate Test))
  | _, before, [] => .ok before
  | i, before, ⟨g, c⟩ :: ts => do
    let q ← predicateAt (path ++ [i]) g
    let p ← joinNext (.group path .groups) i before c q
    joinGroups path (i + 1) (some p) ts

end

/-- The predicate of a whole group. -/
def predicate (g : Group) : Except Fault (Predicate Test) := predicateAt [] g

end Group

end SamplingFrame
