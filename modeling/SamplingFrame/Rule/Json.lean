import SamplingFrame.Load.Form
import SamplingFrame.Rule

/-!
# Rules and terms as documents

How the names of the catalog, rules and terms are written down, and how they are loaded. Fields may
be given by code, and some keys have a second spelling.
-/

namespace SamplingFrame

/-- A field is written by its name. -/
def Field.toJson (f : Field) : Json := .string f.label

/-- A field is read by its name or by its code. -/
def Field.load : Load Field
  | .string s =>
    match Field.ofLabel? s with
    | some f => .ok f
    | none => .error (.unknownField s)
  | .number (.integer n) =>
    if 0 ≤ n ∧ n ≤ 65535 then
      match Field.ofCode? n.toNat with
      | some f => .ok f
      | none => .error (.unknownFieldCode n.toNat)
    else .error .noField
  | v => if v.toJson?.isSome then .error .noField else .error .malformed

/-- An operator is written by its name. -/
def Operator.toJson (op : Operator) : Json := .string op.name

/-- An operator is read as a variant. -/
def Operator.load : Load Operator := Load.variant Operator.all Operator.name

/-- A connective is written by its name. -/
def Connective.toJson (c : Connective) : Json := .string c.name

/-- A connective is read as a variant. -/
def Connective.load : Load Connective := Load.variant Connective.all Connective.name

namespace Rule

/-- The keys of a rule. -/
inductive Key where
  | field
  | operator
  | value
  deriving DecidableEq, Repr

/-- The spellings of the keys of a rule. -/
def form : Form Key where
  keys := [.field, .operator, .value]
  name
    | .field => "field"
    | .operator => "operator"
    | .value => "value"
  aliases
    | .operator => ["operation"]
    | _ => []

/-- What the parts of a rule are. -/
def Key.Part : Key → Type
  | .field => Field
  | .operator => Operator
  | .value => Json

/-- How the parts of a rule are loaded. -/
def Key.load : (k : Key) → Load k.Part
  | .field => Field.load
  | .operator => Operator.load
  | .value => Load.anything

/-- A rule as a document. -/
def toJson (r : Rule) : Json :=
  .object [("field", r.field.toJson), ("operator", r.operator.toJson), ("value", r.value)]

/-- The rule that a document is. -/
def load : Load Rule := fun v => do
  let parts ← form.read Key.load v
  return ⟨← parts.require .field, ← parts.require .operator, ← parts.require .value⟩

end Rule

namespace Term

/-- The keys of a term. -/
inductive Key where
  | node
  | connective
  deriving DecidableEq, Repr

/-- The spellings of the keys of a term. -/
def form : Form Key where
  keys := [.node, .connective]
  name
    | .node => "predicate"
    | .connective => "comparison"
  aliases
    | .node => ["node"]
    | .connective => ["combinator"]

/-- What the parts of a term are. -/
def Key.Part (α : Type) : Key → Type
  | .node => α
  | .connective => Option Connective

/-- How the parts of a term are loaded. -/
def Key.load {α : Type} (node : Load α) : (k : Key) → Load (k.Part α)
  | .node => node
  | .connective => Load.optional Connective.load

variable {α : Type}

/-- A term as a document; without connective its key is left out. -/
def toJson (node : α → Json) (t : Term α) : Json :=
  match t.connective with
  | some c => .object [("comparison", c.toJson), ("predicate", node t.node)]
  | none => .object [("predicate", node t.node)]

/-- The term that a document is. -/
def load (node : Load α) : Load (Term α) := fun v => do
  let parts ← form.read (Key.load node) v
  return ⟨← parts.require .node, (parts.slots .connective).getD none⟩

end Term

end SamplingFrame
