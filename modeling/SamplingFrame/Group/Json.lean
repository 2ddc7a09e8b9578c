import SamplingFrame.Group
import SamplingFrame.Rule.Json

/-!
# Groups as documents

How groups are written down and loaded. Either list of a group may be left out if it is empty.
-/

namespace SamplingFrame.Group

/-- The keys of a group. -/
inductive Key where
  | rules
  | groups
  deriving DecidableEq, Repr

/-- The spellings of the keys of a group. -/
def form : Form Key where
  keys := [.rules, .groups]
  name
    | .rules => "rules"
    | .groups => "groups"
  aliases
    | .rules => []
    | .groups => ["subgroups"]

/-- What the parts of a group are. -/
def Key.Part : Key → Type
  | .rules => List (Term Rule)
  | .groups => List (Term Group)

/-- How the parts of a group are loaded. -/
def Key.load (group : Load Group) : (k : Key) → Load k.Part
  | .rules => Load.list (Term.load Rule.load)
  | .groups => Load.list (Term.load group)

mutual

/-- A group as a document. -/
def toJson : Group → Json
  | mk rules groups =>
    .object [("groups", .array (termsToJson groups)),
      ("rules", .array (rules.map (Term.toJson Rule.toJson)))]

/-- A list of subgroups as documents. -/
def termsToJson : List (Term Group) → List Json
  | [] => []
  | ⟨g, c⟩ :: ts => Term.toJson id ⟨toJson g, c⟩ :: termsToJson ts

end

/-- The group that a document is, if its groups are nested within each other at most `n` times. -/
def loadWithin : Nat → Load Group
  | 0 => fun _ => .error .malformed
  | n + 1 => fun v => do
    let parts ← form.read (Key.load (loadWithin n)) v
    return mk ((parts.slots .rules).getD []) ((parts.slots .groups).getD [])

/-- The group that a document is. Groups are nested no deeper than the document. -/
def load : Load Group := fun v => loadWithin v.depth v

end SamplingFrame.Group
