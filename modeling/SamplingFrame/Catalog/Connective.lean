/-!
# Connectives between terms

A connective joins the value of what stands before a term with the value of the term itself.
Evaluation runs from left to right and asks for the second value only where it can matter.
-/

namespace SamplingFrame

/-- How a term is joined with what stands before it. -/
inductive Connective where
  | and
  | or
  | andNot
  | orNot
  deriving DecidableEq, Repr

namespace Connective

/-- Every connective, in the order in which they are listed. -/
def all : List Connective := [.and, .or, .andNot, .orNot]

/-- The name under which a connective is written down. -/
def name : Connective → String
  | .and => "And"
  | .or => "Or"
  | .andNot => "AndNot"
  | .orNot => "OrNot"

/-- The connective of a name. -/
def ofName? (s : String) : Option Connective := all.find? (·.name == s)

/-- The phrase that shows a connective to a reader. -/
def phrase : Connective → String
  | .and => "AND"
  | .or => "OR"
  | .andNot => "AND NOT"
  | .orNot => "OR NOT"

/-- The conjunctive connectives bind tighter than the disjunctive ones. -/
def isTight : Connective → Bool
  | .and | .andNot => true
  | .or | .orNot => false

/-- A negating connective turns the value of its second operand round. -/
def isNegating : Connective → Bool
  | .andNot | .orNot => true
  | .and | .or => false

/-- The truth table. -/
def apply : Connective → Bool → Bool → Bool
  | .and, a, b => a && b
  | .or, a, b => a || b
  | .andNot, a, b => a && !b
  | .orNot, a, b => a || !b

/-- Whether the second operand still matters once the first is known. -/
def needsSecond (c : Connective) (first : Bool) : Bool := first == c.isTight

/-- The connective that differs in the negation of its second operand alone. -/
def toggled : Connective → Connective
  | .and => .andNot
  | .andNot => .and
  | .or => .orNot
  | .orNot => .or

/-- No connective is missing from the list. -/
theorem mem_all (c : Connective) : c ∈ all := by
  cases c <;> decide

/-- Names tell connectives apart, so reading a name back gives its connective. -/
theorem ofName?_name (c : Connective) : ofName? c.name = some c := by
  cases c <;> decide

/-- A second operand that is not needed does not change the value. -/
theorem apply_of_not_needsSecond {c : Connective} {a : Bool} (h : c.needsSecond a = false)
    (b : Bool) : c.apply a b = a := by
  cases c <;> cases a <;> simp_all [needsSecond, isTight, apply]

/-- Toggling a connective and negating its second operand cancel out. -/
theorem apply_toggled (c : Connective) (a b : Bool) : c.toggled.apply a b = c.apply a (!b) := by
  cases c <;> simp [toggled, apply]

end Connective

end SamplingFrame
