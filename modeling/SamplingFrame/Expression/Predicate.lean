import SamplingFrame.Expression
import SamplingFrame.Test

/-!
# The predicate of an expression

A chain of clauses is first cut into runs of tightly bound clauses, and the runs are then joined
from left to right. So a loose connective applies to the whole run that it opens.
-/

namespace SamplingFrame

namespace Expression

variable {α : Type}

/-- Cuts a chain into runs: the first run, and every later one with the loose connective that opens
it. -/
def cutRuns (head : Predicate α) :
    List (Connective × Predicate α) → Predicate α × List (Connective × Predicate α)
  | [] => (head, [])
  | (c, p) :: rest =>
    if c.isTight then cutRuns (.join c head p) rest
    else
      let (run, runs) := cutRuns p rest
      (head, (c, run) :: runs)

/-- Joins runs from left to right. -/
def joinRuns (first : Predicate α) (runs : List (Connective × Predicate α)) : Predicate α :=
  runs.foldl (fun before (c, run) => .join c before run) first

/-- The predicate of a chain of clauses. -/
def joinChain (head : Predicate α) (tail : List (Connective × Predicate α)) : Predicate α :=
  let (first, runs) := cutRuns head tail
  joinRuns first runs

mutual

/-- The predicate of an expression. In a chain the connective of a clause is looked at before its
contents. -/
def predicate : Expression → Except Fault (Predicate Test)
  | .rule r => do return .test (← r.test)
  | .binary left c right => do
    let p ← predicate left
    let q ← predicate right
    return .join c p q
  | .chain [] => .error .emptyChain
  | .chain (⟨_, some _⟩ :: _) => .error (.leadingConnective .chain)
  | .chain (⟨e, none⟩ :: ts) => do
    let head ← predicate e
    let tail ← clauses 1 ts
    return joinChain head tail

/-- The later clauses of a chain, the first of which has the given index. -/
def clauses : Nat → List (Term Expression) → Except Fault (List (Connective × Predicate Test))
  | _, [] => .ok []
  | i, ⟨_, none⟩ :: _ => .error (.missingConnective .chain i)
  | i, ⟨e, some c⟩ :: ts => do
    let p ← predicate e
    let rest ← clauses (i + 1) ts
    return (c, p) :: rest

end

end Expression

end SamplingFrame
