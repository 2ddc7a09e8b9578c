import SamplingFrame.Payload
import SamplingFrame.Predicate
import SamplingFrame.Record
import SamplingFrame.Rule
import SamplingFrame.Text.Search

/-!
# Tests

A rule that makes sense becomes a test of one field. A missing value passes the negated tests and no
others. A value of the wrong kind breaks what records promise, and no answer is given.
-/

namespace SamplingFrame

/-- A relation between a value and what it is compared with. -/
inductive Relation where
  | equal
  | greater
  | greaterOrEqual
  | less
  | lessOrEqual
  deriving DecidableEq, Repr

/-- Whether a relation holds of two values in a given order. -/
def Relation.holds : Relation → Ordering → Bool
  | .equal, o => o == .eq
  | .greater, o => o == .gt
  | .greaterOrEqual, o => o != .lt
  | .less, o => o == .lt
  | .lessOrEqual, o => o != .gt

/-- What is asked of a present value. -/
inductive Criterion where
  | compares (relation : Relation) (expected : Scalar)
  | oneOf (items : List Scalar)
  | within (low high : Scalar)
  | contains (needle : String)
  deriving DecidableEq, Repr

/-- A criterion for the value of a field, or its negation. -/
structure Test where
  field : Field
  negated : Bool
  criterion : Criterion
  deriving DecidableEq, Repr

/-- A record gave a value of a kind that the field does not have. -/
inductive Violation where
  | wrongKind (field : Field) (found : Kind)
  | notText (field : Field) (found : Kind)
  deriving DecidableEq, Repr

/-- The wording of a violation. -/
def Violation.message : Violation → String
  | .wrongKind f found =>
    "记录源为字段 " ++ f.label ++ " 返回了 " ++ found.name ++ " 值，字段比较类型为 " ++ f.type.name
  | .notText f found => "记录源为字符串字段 " ++ f.label ++ " 返回了 " ++ found.name ++ " 值"

namespace Criterion

/-- The order between the value of a field and an expected value. -/
def order (f : Field) (actual expected : Scalar) : Except Violation Ordering :=
  match actual.compare? expected with
  | some o => .ok o
  | none => .error (.wrongKind f actual.kind)

/-- Whether the value of a field is one of a list; the search stops at the first equal item. -/
def isOneOf (f : Field) (actual : Scalar) : List Scalar → Except Violation Bool
  | [] => .ok false
  | s :: ss => do
    if (← order f actual s) = .eq then return true else isOneOf f actual ss

/-- Whether the value of a field meets a criterion. -/
def holds (f : Field) (actual : Scalar) : Criterion → Except Violation Bool
  | .compares relation expected => do return relation.holds (← order f actual expected)
  | .oneOf items => isOneOf f actual items
  | .within low high => do
    if (← order f actual low) = .lt then return false
    return (← order f actual high) != .gt
  | .contains needle =>
    match actual with
    | .text s => .ok (Text.occurs needle.toList s.toList)
    | _ => .error (.notText f actual.kind)

end Criterion

namespace Test

/-- The answer of a test for a record. -/
def answer (r : Record) (t : Test) : Except Violation Bool :=
  match r t.field with
  | none => .ok t.negated
  | some actual => do return (← t.criterion.holds t.field actual) != t.negated

/-- A criterion for the value of a field: a missing value fails. -/
def whenPresent (f : Field) (criterion : Criterion) : Test := ⟨f, false, criterion⟩

/-- The negation of a criterion for the value of a field: a missing value passes. -/
def unlessPresent (f : Field) (criterion : Criterion) : Test := ⟨f, true, criterion⟩

/-- The test that an operator makes of a payload, if the payload suits it. -/
def ofPayload? (f : Field) : Operator → Payload → Option Test
  | .equal, .scalar s => some (whenPresent f (.compares .equal s))
  | .notEqual, .scalar s => some (unlessPresent f (.compares .equal s))
  | .greaterThan, .scalar s => some (whenPresent f (.compares .greater s))
  | .greaterThanOrEqual, .scalar s => some (whenPresent f (.compares .greaterOrEqual s))
  | .lessThan, .scalar s => some (whenPresent f (.compares .less s))
  | .lessThanOrEqual, .scalar s => some (whenPresent f (.compares .lessOrEqual s))
  | .inList, .list items => some (whenPresent f (.oneOf items))
  | .notInList, .list items => some (unlessPresent f (.oneOf items))
  | .inRange, .range low high => some (whenPresent f (.within low high))
  | .notInRange, .range low high => some (unlessPresent f (.within low high))
  | .contains, .scalar (.text s) => some (whenPresent f (.contains s))
  | .doesNotContain, .scalar (.text s) => some (unlessPresent f (.contains s))
  | _, _ => none

end Test

/-- The test that a rule stands for: its operator must be allowed, and its value must be a payload
of that operator. -/
def Rule.test (r : Rule) : Except Fault Test :=
  if r.field.allows r.operator then do
    let payload ← Payload.read r.field r.operator r.value
    match Test.ofPayload? r.field r.operator payload with
    | some t => return t
    | none => .error (.noTest r.field r.operator)
  else .error (.operatorNotAllowed r.field r.operator)

namespace Predicate

/-- Evaluates a predicate on a record. -/
def run (p : Predicate Test) (r : Record) : Trace Test Violation := p.eval (Test.answer r)

/-- The fields that are read in an evaluation on a record, in order. -/
def reads (p : Predicate Test) (r : Record) : List Field := (p.run r).asked.map (·.field)

/-- Whether a record matches. -/
def matches? (p : Predicate Test) (r : Record) : Except Violation Bool := (p.run r).outcome

end Predicate

end SamplingFrame
