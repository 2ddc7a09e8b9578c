import SamplingFrame.Catalog.Connective
import SamplingFrame.Catalog.Field
import SamplingFrame.Json.Basic

/-!
# Rules and terms

A rule compares one field with one stored value. A term is a rule, a group or an expression together
with the connective that joins it with the terms before it.
-/

namespace SamplingFrame

/-- A comparison of a field with a stored value, which is not yet known to make sense. -/
structure Rule where
  /-- The field that is compared. -/
  field : Field
  /-- How it is compared. -/
  operator : Operator
  /-- What it is compared with, as it was stored. -/
  value : Json
  deriving Repr

/-- A node in a sequence. The first node of a sequence has no connective, every later one has. -/
structure Term (α : Type) where
  /-- What the term says. -/
  node : α
  /-- How the term is joined with those before it. -/
  connective : Option Connective
  deriving Repr

namespace Term

variable {α : Type}

/-- The first term of a sequence. -/
def first (node : α) : Term α := ⟨node, none⟩

/-- A later term of a sequence. -/
def next (connective : Connective) (node : α) : Term α := ⟨node, some connective⟩

end Term

end SamplingFrame
