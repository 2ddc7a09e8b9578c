import SamplingFrame.Proofs.Number.Written
import SamplingFrame.Proofs.Order

/-!
# Values read back

The text that shows a value is read as that value, except that a zero with a minus in front comes
back without it. The order to other values does not change by that.
-/

namespace SamplingFrame

namespace Scalar

/-- A zero with a minus in front. -/
def IsSignedZero : Scalar → Prop
  | .decimal d => d.IsSignedZero
  | _ => False

/-- The value that a stored value is loaded as: a zero loses its sign. -/
def reread : Scalar → Scalar
  | .decimal d => .decimal d.reread
  | s => s

@[simp]
theorem kind_reread (s : Scalar) : s.reread.kind = s.kind := by
  cases s <;> rfl

/-- The order to other values stays the same. -/
@[simp]
theorem compare?_reread (s t : Scalar) : s.reread.compare? t = s.compare? t := by
  cases s with
  | decimal d => cases t <;> simp [reread, compare?, Decimal.compare_reread]
  | text | integer | date | boolean => rfl

theorem reread_eq_self {s : Scalar} (h : ¬ s.IsSignedZero) : s.reread = s := by
  cases s with
  | decimal d => exact congrArg Scalar.decimal (Decimal.reread_eq_self h)
  | text | integer | date | boolean => rfl

theorem render_of_isSignedZero {s : Scalar} (h : s.IsSignedZero) :
    s.render = "-" ++ s.reread.render := by
  cases s with
  | decimal d =>
    rw [render, Decimal.render_of_isSignedZero h, ← List.singleton_append, String.ofList_append]
    rfl
  | text | integer | date | boolean => cases h

end Scalar

end SamplingFrame
