import Mathlib.Data.List.TakeWhile
import SamplingFrame.Text.Blank

/-!
# Taking blanks off

A text that has no blanks at its ends is left as it is. From any other text only blanks are taken
off.
-/

namespace SamplingFrame.Text

/-- A text of blanks alone. -/
def IsBlank (cs : List Char) : Prop := ∀ c ∈ cs, isBlank c = true

/-- A text in which no blank occurs. -/
def IsSolid (cs : List Char) : Prop := ∀ c ∈ cs, isBlank c = false

/-! ### Solid texts -/

theorem IsSolid.append {cs ds : List Char} (hcs : IsSolid cs) (hds : IsSolid ds) :
    IsSolid (cs ++ ds) := by
  intro c hc
  rcases List.mem_append.mp hc with hc | hc
  · exact hcs c hc
  · exact hds c hc

theorem IsSolid.cons {c : Char} {cs : List Char} (hc : isBlank c = false) (hcs : IsSolid cs) :
    IsSolid (c :: cs) :=
  List.forall_mem_cons.mpr ⟨hc, hcs⟩

theorem IsSolid.isTrimmed {cs : List Char} (h : IsSolid cs) : IsTrimmed cs :=
  ⟨fun c hc ↦ h c (List.mem_of_head? hc), fun c hc ↦ h c (List.mem_of_getLast? hc)⟩

/-! ### The ends of a text -/

theorem dropWhile_isBlank_of_head {cs : List Char} (h : ∀ c ∈ cs.head?, isBlank c = false) :
    cs.dropWhile isBlank = cs := by
  cases cs with
  | nil => rfl
  | cons c cs => rw [List.dropWhile_cons, if_neg (by simp [h c rfl])]

theorem trimStart_of_head {cs : List Char} (h : ∀ c ∈ cs.head?, isBlank c = false) :
    trimStart cs = cs :=
  dropWhile_isBlank_of_head h

/-- A text without blanks at its ends is left as it is. -/
theorem trim_of_isTrimmed {cs : List Char} (h : IsTrimmed cs) : trim cs = cs := by
  have hlast : ∀ c ∈ cs.reverse.head?, isBlank c = false := by
    rw [List.head?_reverse]
    exact h.2
  rw [trim, trimStart_of_head h.1, trimEnd, dropWhile_isBlank_of_head hlast, List.reverse_reverse]

theorem head?_trimStart {cs : List Char} : ∀ c ∈ (trimStart cs).head?, isBlank c = false := by
  intro c hc
  have hnot := List.head?_dropWhile_not isBlank cs
  rw [trimStart] at hc
  rw [Option.mem_def.mp hc] at hnot
  simpa using hnot

theorem trimStart_trimStart (cs : List Char) : trimStart (trimStart cs) = trimStart cs :=
  trimStart_of_head head?_trimStart

/-- What follows a text that is not blank is kept when blanks are taken off in front. -/
theorem trimStart_append {cs : List Char} (h : trimStart cs ≠ []) (ds : List Char) :
    trimStart (cs ++ ds) = trimStart cs ++ ds := by
  rw [trimStart, List.dropWhile_append, if_neg]
  · rfl
  · simpa [trimStart] using h

/-- At the end of a text only blanks are taken off. -/
theorem exists_trimEnd_append (cs : List Char) :
    ∃ blanks, IsBlank blanks ∧ trimEnd cs ++ blanks = cs := by
  refine ⟨(cs.reverse.takeWhile isBlank).reverse, fun c hc ↦ ?_, ?_⟩
  · exact List.mem_takeWhile_imp (List.mem_reverse.mp hc)
  · rw [trimEnd, ← List.reverse_append, List.takeWhile_append_dropWhile, List.reverse_reverse]

theorem getLast?_trimEnd {cs : List Char} : ∀ c ∈ (trimEnd cs).getLast?, isBlank c = false := by
  intro c hc
  rw [trimEnd, List.getLast?_reverse] at hc
  exact head?_trimStart c hc

/-- What is left once the blanks at both ends are taken off has none there. -/
theorem isTrimmed_trim (cs : List Char) : IsTrimmed (trim cs) := by
  refine ⟨fun c hc ↦ ?_, getLast?_trimEnd⟩
  obtain ⟨blanks, -, hcs⟩ := exists_trimEnd_append (trimStart cs)
  have hhead : c ∈ (trimStart cs).head? := by
    rw [← hcs, List.head?_append]
    exact Option.or_eq_some_iff.mpr (.inl hc)
  exact head?_trimStart c hhead

/-! ### Padding -/

/-- A text is another one with blanks added at its ends. -/
def Pads (padded cs : List Char) : Prop :=
  ∃ before after, IsBlank before ∧ IsBlank after ∧ padded = before ++ cs ++ after

/-- The blanks that are taken off pad what is left. -/
theorem pads_trim (cs : List Char) : Pads cs (trim cs) := by
  obtain ⟨after, hafter, htrim⟩ := exists_trimEnd_append (trimStart cs)
  refine ⟨cs.takeWhile isBlank, after, fun c hc ↦ List.mem_takeWhile_imp hc, hafter, ?_⟩
  rw [List.append_assoc, trim, htrim, trimStart, List.takeWhile_append_dropWhile]

/-- No other characters than blanks are taken off. -/
theorem mem_trim {c : Char} {cs : List Char} (hc : isBlank c = false) (h : c ∈ cs) :
    c ∈ trim cs := by
  obtain ⟨before, after, hbefore, hafter, hcs⟩ := pads_trim cs
  rw [hcs, List.mem_append, List.mem_append] at h
  rcases h with (h | h) | h
  · exact absurd (hbefore c h) (by simp [hc])
  · exact h
  · exact absurd (hafter c h) (by simp [hc])

theorem trimStart_blank_append {before : List Char} (h : IsBlank before) (cs : List Char) :
    trimStart (before ++ cs) = trimStart cs :=
  List.dropWhile_append_of_pos h

theorem trimEnd_append_blank {after : List Char} (h : IsBlank after) (cs : List Char) :
    trimEnd (cs ++ after) = trimEnd cs := by
  rw [trimEnd, List.reverse_append,
    List.dropWhile_append_of_pos fun c hc ↦ h c (List.mem_reverse.mp hc), trimEnd]

/-- Padding is taken off again. -/
theorem trim_of_pads {padded cs : List Char} (h : Pads padded cs) (hcs : IsTrimmed cs) :
    trim padded = cs := by
  obtain ⟨before, after, hbefore, hafter, rfl⟩ := h
  rw [List.append_assoc, trim, trimStart_blank_append hbefore]
  cases cs with
  | nil =>
    have hnil := trimStart_blank_append hafter []
    rw [List.append_nil] at hnil
    rw [List.nil_append, hnil]
    rfl
  | cons c cs =>
    have hstart : trimStart (c :: cs) ≠ [] := by simp [trimStart_of_head hcs.1]
    rw [trimStart_append hstart, trimEnd_append_blank hafter]
    exact trim_of_isTrimmed hcs

end SamplingFrame.Text
