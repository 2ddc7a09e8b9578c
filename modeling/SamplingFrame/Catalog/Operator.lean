/-!
# Operators of a rule

An operator compares the value of a field with the payload of a rule. Its shape says how many
values the payload holds, and its polarity says what a missing field answers.
-/

namespace SamplingFrame

/-- How the value of a field is compared with the payload of a rule. -/
inductive Operator where
  | equal
  | notEqual
  | greaterThan
  | greaterThanOrEqual
  | lessThan
  | lessThanOrEqual
  | inList
  | notInList
  | inRange
  | notInRange
  | contains
  | doesNotContain
  deriving DecidableEq, Repr

/-- How many values a payload holds: one, any number, or the two ends of a range. -/
inductive Shape where
  | scalar
  | list
  | range
  deriving DecidableEq, Repr

/-- The word for a shape. -/
def Shape.name : Shape → String
  | .scalar => "scalar"
  | .list => "list"
  | .range => "range"

namespace Operator

/-- Every operator, in the order in which they are listed. -/
def all : List Operator :=
  [.equal, .notEqual, .greaterThan, .greaterThanOrEqual, .lessThan, .lessThanOrEqual,
    .inList, .notInList, .inRange, .notInRange, .contains, .doesNotContain]

/-- The name under which an operator is written down and shown. -/
def name : Operator → String
  | .equal => "Equal"
  | .notEqual => "NotEqual"
  | .greaterThan => "GreaterThan"
  | .greaterThanOrEqual => "GreaterThanOrEqual"
  | .lessThan => "LessThan"
  | .lessThanOrEqual => "LessThanOrEqual"
  | .inList => "InList"
  | .notInList => "NotInList"
  | .inRange => "InRange"
  | .notInRange => "NotInRange"
  | .contains => "Contains"
  | .doesNotContain => "DoesNotContain"

/-- The operator of a name. -/
def ofName? (s : String) : Option Operator := all.find? (·.name == s)

/-- The shape of the payload that an operator takes. -/
def shape : Operator → Shape
  | .inList | .notInList => .list
  | .inRange | .notInRange => .range
  | _ => .scalar

/-- A negative operator holds of a record that lacks the field. -/
def isNegative : Operator → Bool
  | .notEqual | .notInList | .notInRange | .doesNotContain => true
  | _ => false

/-- The operator that holds exactly where the given one does not, for those that have one. -/
def complement? : Operator → Option Operator
  | .equal => some .notEqual
  | .notEqual => some .equal
  | .inList => some .notInList
  | .notInList => some .inList
  | .inRange => some .notInRange
  | .notInRange => some .inRange
  | .contains => some .doesNotContain
  | .doesNotContain => some .contains
  | .greaterThan | .greaterThanOrEqual | .lessThan | .lessThanOrEqual => none

/-- No operator is missing from the list. -/
theorem mem_all (op : Operator) : op ∈ all := by
  cases op <;> decide

/-- Names tell operators apart, so reading a name back gives its operator. -/
theorem ofName?_name (op : Operator) : ofName? op.name = some op := by
  cases op <;> decide

end Operator

end SamplingFrame
