import SamplingFrame.Fault
import SamplingFrame.Proofs.Number.Whole

/-!
# The texts of places

The text of a place in a group is made of the steps down to it, each with its index in brackets. Two
different places have different texts.
-/

namespace SamplingFrame

namespace Whole

/-- Two numbers that are followed by the same character, which is no digit, can be told from what
follows them. -/
theorem digits_append_inj {c : Char} (hc : c.isDigit = false) {m n : Nat} {us vs : List Char}
    (h : digits m ++ c :: us = digits n ++ c :: vs) : m = n ∧ us = vs := by
  have hdigits : digits m = digits n := by
    rw [← (isDigits_digits m).takeWhile_append (Text.isDigit_head_cons hc us), h,
      (isDigits_digits n).takeWhile_append (Text.isDigit_head_cons hc vs)]
  refine ⟨digits_injective hdigits, ?_⟩
  rw [hdigits] at h
  exact (List.cons.inj (List.append_cancel_left h)).2

end Whole

namespace Place

theorem toList_steps_cons (i : Nat) (path : List Nat) :
    (steps (i :: path)).toList =
      ".groups[".toList ++ (Whole.digits i ++ ']' :: (steps path).toList) := by
  simp [steps]

/-- The steps down to a group, one for each index. -/
theorem steps_eq_join (path : List Nat) :
    steps path = String.join (path.map fun i ↦ ".groups[" ++ toString i ++ "]") := by
  induction path with
  | nil => rfl
  | cons i path ih =>
    rw [steps, ih, List.map_cons, String.join_cons, Nat.toString_eq_ofList_toDigits]
    rfl

/-- Steps and the list that they end in can be told from their text. -/
theorem steps_append_inj {path path' : List Nat} {list list' : TermList}
    (h : (steps path).toList ++ ('.' :: list.name.toList) =
      (steps path').toList ++ ('.' :: list'.name.toList)) : path = path' ∧ list = list' := by
  induction path generalizing path' with
  | nil =>
    cases path' with
    | nil => cases list <;> cases list' <;> simp_all [steps, TermList.name]
    -- A step goes on with a bracket, where the name of a list ends.
    | cons j path' => cases list <;> simp [steps, TermList.name] at h
  | cons i path ih =>
    cases path' with
    | nil => cases list' <;> simp [steps, TermList.name] at h
    | cons j path' =>
      rw [toList_steps_cons, toList_steps_cons, List.append_assoc, List.append_assoc,
        List.append_assoc, List.append_assoc] at h
      obtain ⟨rfl, hrest⟩ := Whole.digits_append_inj (by decide) (List.append_cancel_left h)
      obtain ⟨rfl, rfl⟩ := ih hrest
      exact ⟨rfl, rfl⟩

/-- Different places in a group have different texts. -/
theorem text_group_inj {path path' : List Nat} {list list' : TermList}
    (h : (group path list).text = (group path' list').text) : path = path' ∧ list = list' := by
  have hchars := congrArg String.toList h
  simp only [text, String.toList_append, List.append_assoc, List.append_cancel_left_eq] at hchars
  exact steps_append_inj hchars

end Place

end SamplingFrame
