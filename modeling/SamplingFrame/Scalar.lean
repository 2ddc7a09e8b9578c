import SamplingFrame.Catalog.Field
import SamplingFrame.Number.Decimal
import SamplingFrame.Calendar.Date

/-!
# Scalars

The values that records hold and that rules compare them with. Each scalar has a kind, a text, and
an order among the scalars of its kind.
-/

namespace SamplingFrame

/-- A single value. -/
inductive Scalar where
  | text (s : String)
  | integer (n : Int64)
  | decimal (d : Decimal)
  | date (d : Date)
  | boolean (b : Bool)
  deriving DecidableEq, Repr

namespace Scalar

/-- The kind of a value. -/
def kind : Scalar → Kind
  | .text _ => .text
  | .integer _ => .integer
  | .decimal _ => .decimal
  | .date _ => .date
  | .boolean _ => .boolean

/-- The text that shows a value. -/
def render : Scalar → String
  | .text s => s
  | .integer n => String.ofList (Whole.render n.toInt)
  | .decimal d => String.ofList d.render
  | .date d => String.ofList d.render
  | .boolean true => "true"
  | .boolean false => "false"

/-- The order of two values of one kind: texts by code points, numbers by value, dates by time, and
false before true. Values of different kinds are not compared. -/
def compare? : Scalar → Scalar → Option Ordering
  | .text a, .text b => some (Ord.compare a b)
  | .integer a, .integer b => some (Ord.compare a.toInt b.toInt)
  | .decimal a, .decimal b => some (a.compare b)
  | .date a, .date b => some (a.compare b)
  | .boolean a, .boolean b => some (Ord.compare a.toNat b.toNat)
  | _, _ => none

/-- Whether two values are equal; numbers of different scale may be. -/
def same (a b : Scalar) : Bool := a.compare? b == some .eq

/-- Two values are comparable exactly if they are of one kind. -/
theorem compare?_isSome_iff {a b : Scalar} : (a.compare? b).isSome = true ↔ a.kind = b.kind := by
  cases a <;> cases b <;> simp [compare?, kind]

end Scalar

end SamplingFrame
