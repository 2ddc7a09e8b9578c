import SamplingFrame.Rule

/-!
# Expressions

An expression is a rule, two expressions joined by a connective, or a chain of clauses in which the
conjunctive connectives bind tighter than the disjunctive ones.
-/

namespace SamplingFrame

/-- A rule, a joined pair, or a chain of clauses. -/
inductive Expression where
  | rule (rule : Rule)
  | binary (left : Expression) (connective : Connective) (right : Expression)
  | chain (clauses : List (Term Expression))
  deriving Repr

namespace Expression

mutual

/-- The rules of an expression, in the order in which they are written. -/
def leaves : Expression → List Rule
  | .rule r => [r]
  | .binary left _ right => leaves left ++ leaves right
  | .chain clauses => leavesOfTerms clauses

/-- The rules in a list of clauses. -/
def leavesOfTerms : List (Term Expression) → List Rule
  | [] => []
  | ⟨e, _⟩ :: ts => leaves e ++ leavesOfTerms ts

end

/-- The set of fields that rules at any depth refer to. -/
def fields (e : Expression) : List Field := Field.inOrder (e.leaves.map (·.field))

/-- The word for the outermost form of an expression. -/
def form : Expression → String
  | .rule _ => "rule"
  | .binary .. => "binary"
  | .chain _ => "clauses"

end Expression

end SamplingFrame
