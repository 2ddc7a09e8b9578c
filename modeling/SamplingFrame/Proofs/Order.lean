import SamplingFrame.Proofs.Number.Whole
import SamplingFrame.Scalar

/-!
# The order of values

Decimal numbers are ordered by value whatever their scales are, and dates by time. So among the
values of one kind the comparison is a total order, in which numbers of different scale may be
equal, and equal values compare alike with every value.
-/

namespace SamplingFrame

namespace Decimal

open Whole (tenTo tenTo_pos)

/-- Numbers are compared by their digits once both have the same scale. -/
theorem isLE_compare {a b : Decimal} :
    (a.compare b).isLE = true ↔ a.signed * tenTo b.scale ≤ b.signed * tenTo a.scale :=
  Int.isLE_compare

theorem isLE_trans {a b c : Decimal} (hab : (a.compare b).isLE = true)
    (hbc : (b.compare c).isLE = true) : (a.compare c).isLE = true := by
  rw [isLE_compare] at hab hbc ⊢
  have ha : (0 : Int) ≤ tenTo a.scale := Int.natCast_nonneg _
  have hc : (0 : Int) ≤ tenTo c.scale := Int.natCast_nonneg _
  have hb : (0 : Int) < tenTo b.scale := Int.natCast_pos.mpr (tenTo_pos _)
  -- All three numbers are brought to the sum of their scales.
  refine Int.le_of_mul_le_mul_right ?_ hb
  calc a.signed * tenTo c.scale * tenTo b.scale
      = a.signed * tenTo b.scale * tenTo c.scale := Int.mul_right_comm _ _ _
    _ ≤ b.signed * tenTo a.scale * tenTo c.scale := Int.mul_le_mul_of_nonneg_right hab hc
    _ = b.signed * tenTo c.scale * tenTo a.scale := Int.mul_right_comm _ _ _
    _ ≤ c.signed * tenTo b.scale * tenTo a.scale := Int.mul_le_mul_of_nonneg_right hbc ha
    _ = c.signed * tenTo a.scale * tenTo b.scale := Int.mul_right_comm _ _ _

instance : Std.TransCmp compare where
  eq_swap := by
    intro a b
    rw [compare, compare]
    exact Std.OrientedCmp.eq_swap
  isLE_trans := isLE_trans

end Decimal

/-- Dates are ordered by year, month and day, one after the other. -/
instance : Std.TransCmp Date.compare :=
  inferInstanceAs (Std.TransCmp (compareLex (compareOn Date.year)
    (compareLex (compareOn Date.month) (compareOn Date.day))))

namespace Scalar

variable {a b c : Scalar} {o o' : Ordering}

/-- Every value is equal to itself. -/
theorem compare?_self (a : Scalar) : a.compare? a = some .eq := by
  cases a <;> simp [compare?, Std.ReflCmp.compare_self]

/-- Comparing the other way round turns the order round. -/
theorem compare?_swap (a b : Scalar) : a.compare? b = (b.compare? a).map Ordering.swap := by
  cases a <;> cases b <;> simp only [compare?, Option.map]
  all_goals exact congrArg some Std.OrientedCmp.eq_swap

theorem isLE_trans (hab : a.compare? b = some o) (hbc : b.compare? c = some o')
    (ho : o.isLE = true) (ho' : o'.isLE = true) :
    ∃ o'', a.compare? c = some o'' ∧ o''.isLE = true := by
  cases a <;> cases b <;> cases hab <;> cases c <;> cases hbc
  all_goals exact ⟨_, rfl, Std.TransCmp.isLE_trans ho ho'⟩

/-- Equal values compare alike with every value. -/
theorem compare?_congr_right (hbc : b.compare? c = some .eq) (a : Scalar) :
    a.compare? b = a.compare? c := by
  cases b <;> cases c <;> simp only [compare?, Option.some.injEq, reduceCtorEq] at hbc
  all_goals cases a <;> simp only [compare?, Option.some.injEq]
  all_goals exact Std.TransCmp.congr_right hbc

end Scalar

end SamplingFrame
