import SamplingFrame.Json.Reader
import SamplingFrame.Proofs.Number.Whole

/-!
# Whole numbers in documents

The digits of a whole number that fits a word are read back as the number, with or without a sign.
All digits of such a number fit the word in which they are collected.
-/

namespace SamplingFrame

open Text (IsDigits)

namespace Numeral

-- The limit of a word is so large a numeral that Lean's own equations for the collector time out.
theorem collectWhole_nil (word : Nat) : collectWhole word [] = ⟨word, 0⟩ := by
  delta collectWhole
  exact Eq.refl _

theorem collectWhole_cons (word : Nat) (c : Char) (cs : List Char) :
    collectWhole word (c :: cs) =
      match push? word c with
      | some next => collectWhole next cs
      | none => ⟨word, (c :: cs).length⟩ := by
  delta collectWhole
  exact Eq.refl _

/-- Digits that fit the word are all collected. -/
theorem collectWhole_of_isDigits {word : Nat} {cs : List Char} (hcs : IsDigits cs)
    (hfit : Whole.value word cs ≤ Whole.maxUnsigned) :
    collectWhole word cs = ⟨Whole.value word cs, 0⟩ := by
  induction cs generalizing word with
  | nil => rw [collectWhole_nil, Whole.value_nil]
  | cons c cs ih =>
    rw [Whole.value_cons] at hfit ⊢
    have hpush : push? word c = some (word * 10 + (c.toNat - '0'.toNat)) := by
      simp only [push?]
      rw [if_pos (Nat.le_trans (Whole.le_value _ _) hfit)]
    rw [collectWhole_cons, hpush]
    exact ih hcs.tail hfit

/-- A whole number that fits a word is kept as it is. -/
theorem value?_digits {n : Int} (hn : Whole.IsWord n) :
    value? ⟨decide (n < 0), Whole.digits n.natAbs, [], none⟩ = some (.integer n) := by
  have hfit : Whole.value 0 (Whole.digits n.natAbs) ≤ Whole.maxUnsigned := by
    rw [Whole.value_digits, Whole.maxUnsigned]
    rw [Whole.IsWord] at hn
    omega
  have hcollect := collectWhole_of_isDigits (Whole.isDigits_digits n.natAbs) hfit
  rw [Whole.value_digits] at hcollect
  have hwhole : (([] : List Char).isEmpty && (none : Option Int).isNone && (0 : Int) == 0) = true :=
    rfl
  by_cases hneg : n < 0
  · have hpos : 0 < n.natAbs := by omega
    have hword : n.natAbs ≤ Whole.maxSigned + 1 := by
      rw [Whole.IsWord] at hn
      rw [Whole.maxSigned]
      omega
    have habs : -(n.natAbs : Int) = n := by omega
    have hfits : (decide (0 < n.natAbs) && decide (n.natAbs ≤ Whole.maxSigned + 1)) = true := by
      simp only [hpos, hword, decide_true, Bool.and_true]
    simp only [value?, hcollect]
    rw [if_pos hwhole, decide_eq_true hneg, if_neg (by decide), if_pos hfits, habs]
  · have habs : (n.natAbs : Int) = n := by omega
    simp only [value?, hcollect]
    rw [if_pos hwhole, decide_eq_false hneg, if_pos (by decide), habs]

end Numeral

namespace Source

/-- A character that ends a value. -/
def IsEnd (c : Char) : Prop := c = ',' ∨ c = ']' ∨ c = '\x7d'

variable {c : Char}

theorem readWhole?_digits (hc : IsEnd c) (n : Nat) (rest : List Char) :
    readWhole? (Whole.digits n ++ c :: rest) = some (Whole.digits n, c :: rest) := by
  have hdigit : c.isDigit = false := by
    rcases hc with rfl | rfl | rfl <;> rfl
  have hspan : spanDigits (Whole.digits n ++ c :: rest) = (Whole.digits n, c :: rest) := by
    have hdigits := Whole.isDigits_digits n
    rw [spanDigits, hdigits.takeWhile_append (Text.isDigit_head_cons hdigit rest),
      List.dropWhile_append_of_pos hdigits, List.dropWhile_cons_of_neg (by simp [hdigit])]
  rw [readWhole?, hspan]
  split
  · next heq => exact absurd (Prod.mk.inj heq).1 (Whole.digits_ne_nil n)
  · next heq => exact absurd (Prod.mk.inj heq).1 (Whole.digits_ne_zero_cons n _ _)
  · rfl

/-- A number in front of the end of a value is read with its sign. -/
theorem readNumber_digits (hc : IsEnd c) {n : Int} (hn : Whole.IsWord n) (rest : List Char) :
    readNumber (decide (n < 0)) (Whole.digits n.natAbs ++ c :: rest) =
      (.number (.integer n), some (c :: rest)) := by
  have hplaces : readPlaces? (c :: rest) = some ([], c :: rest) := by
    rcases hc with rfl | rfl | rfl <;> rfl
  have hexponent : readExponent? (c :: rest) = some (none, c :: rest) := by
    rcases hc with rfl | rfl | rfl <;> rfl
  simp [readNumber, readWhole?_digits hc, hplaces, hexponent, Numeral.value?_digits hn]

end Source

end SamplingFrame
