import SamplingFrame.Rule

/-!
# Groups

A group is a sequence of terms: its rules, and after them its subgroups. It is evaluated from left
to right without precedence.
-/

namespace SamplingFrame

/-- Rules followed by subgroups. -/
inductive Group where
  | mk (rules : List (Term Rule)) (groups : List (Term Group))
  deriving Repr

namespace Group

/-- The rules of a group itself. -/
def rules : Group → List (Term Rule)
  | mk rules _ => rules

/-- The subgroups of a group itself. -/
def groups : Group → List (Term Group)
  | mk _ groups => groups

/-- The group without terms. -/
def empty : Group := mk [] []

/-- A group that has rules only. -/
def ofRules (rules : List (Term Rule)) : Group := mk rules []

/-- Whether a group has no terms. -/
def isEmpty (g : Group) : Bool := g.rules.isEmpty && g.groups.isEmpty

mutual

/-- The rules of a group and of all groups below it, in the order in which they are written. -/
def leaves : Group → List Rule
  | mk rules groups => rules.map (·.node) ++ leavesOfTerms groups

/-- The rules in a list of subgroups. -/
def leavesOfTerms : List (Term Group) → List Rule
  | [] => []
  | ⟨g, _⟩ :: ts => leaves g ++ leavesOfTerms ts

end

/-- How many rules there are at any depth. -/
def ruleCount (g : Group) : Nat := g.leaves.length

/-- The set of fields that rules at any depth refer to. -/
def fields (g : Group) : List Field := Field.inOrder (g.leaves.map (·.field))

end Group

end SamplingFrame
