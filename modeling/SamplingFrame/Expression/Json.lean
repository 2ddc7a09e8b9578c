import SamplingFrame.Expression
import SamplingFrame.Rule.Json

/-!
# Expressions as documents

An expression is written without saying which of its three forms it has. Loading tries them in turn,
and what is wrong within each is not told.
-/

namespace SamplingFrame.Expression

/-- The key of a chain. -/
inductive ChainKey where
  | clauses
  deriving DecidableEq, Repr

/-- The spelling of the key of a chain. -/
def chainForm : Form ChainKey where
  keys := [.clauses]
  name _ := "clauses"
  aliases _ := []

/-- The keys of a joined pair. -/
inductive BinaryKey where
  | left
  | right
  | connective
  deriving DecidableEq, Repr

/-- The spellings of the keys of a joined pair. -/
def binaryForm : Form BinaryKey where
  keys := [.left, .right, .connective]
  name
    | .left => "left"
    | .right => "right"
    | .connective => "comparison"
  aliases
    | .connective => ["combinator"]
    | _ => []

/-- What the parts of a joined pair are. -/
def BinaryKey.Part : BinaryKey → Type
  | .left | .right => Expression
  | .connective => Connective

/-- How the parts of a joined pair are loaded. -/
def BinaryKey.load (node : Load Expression) : (k : BinaryKey) → Load k.Part
  | .left => node
  | .right => node
  | .connective => Connective.load

mutual

/-- An expression as a document. -/
def toJson : Expression → Json
  | .rule r => r.toJson
  | .binary left c right =>
    .object [("comparison", c.toJson), ("left", toJson left), ("right", toJson right)]
  | .chain clauses => .object [("clauses", .array (termsToJson clauses))]

/-- A list of clauses as documents. -/
def termsToJson : List (Term Expression) → List Json
  | [] => []
  | ⟨e, c⟩ :: ts => Term.toJson id ⟨toJson e, c⟩ :: termsToJson ts

end

/-- A chain, whose clauses are loaded by `node`. -/
def loadChain (node : Load Expression) : Load Expression := fun v => do
  let parts ← chainForm.readObject (V := fun _ => List (Term Expression))
    (fun _ => Load.list (Term.load node)) v
  return .chain (← parts.require .clauses)

/-- A joined pair, whose sides are loaded by `node`. -/
def loadBinary (node : Load Expression) : Load Expression := fun v => do
  let parts ← binaryForm.readObject (BinaryKey.load node) v
  return .binary (← parts.require .left) (← parts.require .connective) (← parts.require .right)

/-- The first of several loaders that succeeds. -/
def firstOf (loads : List (Load Expression)) : Load Expression := fun v =>
  match loads.findSome? fun load => (load v).toOption with
  | some e => .ok e
  | none => .error .noExpression

/-- The expression that a document is, if expressions are nested within each other at most `n`
times. -/
def loadWithin : Nat → Load Expression
  | 0 => fun _ => .error .noExpression
  | n + 1 => firstOf [loadChain (loadWithin n), loadBinary (loadWithin n),
      fun v => (Rule.load v).map .rule]

/-- The expression that a document is. Expressions are nested no deeper than the document. -/
def load : Load Expression := fun v => loadWithin v.depth v

end SamplingFrame.Expression
