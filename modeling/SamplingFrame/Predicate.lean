import SamplingFrame.Catalog.Connective

/-!
# Predicates

A predicate is a tree of connectives over tests. Evaluating one asks the tests from left to right,
each only where its answer can still matter, and lists those that were asked. A test that fails
ends the evaluation.
-/

namespace SamplingFrame

/-- A tree of connectives over tests of type `α`. -/
inductive Predicate (α : Type) where
  /-- True of everything. -/
  | always
  /-- A single test. -/
  | test (t : α)
  /-- Two predicates, joined. -/
  | join (c : Connective) (first second : Predicate α)
  deriving Repr

/-- The course of an evaluation: the tests that were asked, in order, and how it ended. -/
structure Trace (α ε : Type) where
  /-- The tests that were asked. -/
  asked : List α
  /-- The value, or the failure of the last test asked. -/
  outcome : Except ε Bool

namespace Predicate

variable {α ε : Type}

/-- Evaluates a predicate, given the answers of tests. -/
def eval (answer : α → Except ε Bool) : Predicate α → Trace α ε
  | .always => ⟨[], .ok true⟩
  | .test t => ⟨[t], answer t⟩
  | .join c p q =>
    match p.eval answer with
    | ⟨asked, .error e⟩ => ⟨asked, .error e⟩
    | ⟨asked, .ok a⟩ =>
      if c.needsSecond a then
        match q.eval answer with
        | ⟨more, .error e⟩ => ⟨asked ++ more, .error e⟩
        | ⟨more, .ok b⟩ => ⟨asked ++ more, .ok (c.apply a b)⟩
      else ⟨asked, .ok a⟩

/-- The tests of a predicate, from left to right. -/
def tests : Predicate α → List α
  | .always => []
  | .test t => [t]
  | .join _ p q => p.tests ++ q.tests

/-- The value of a predicate whose tests have given values; every test counts. -/
def value (answer : α → Bool) : Predicate α → Bool
  | .always => true
  | .test t => answer t
  | .join c p q => c.apply (p.value answer) (q.value answer)

end Predicate

end SamplingFrame
