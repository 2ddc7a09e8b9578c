import SamplingFrame.Number.Decimal.Reader
import SamplingFrame.Proofs.Except
import SamplingFrame.Proofs.Number.Whole

/-!
# Reading decimal numbers

Text that is read as a decimal number has no blanks in it, and strict scientific notation never
helps where the other notations fail. Digits with a point are read as the value of the digits; what
does not fit into 28 places is rounded, a half going up.
-/

namespace SamplingFrame.Decimal

open Text (IsDigits IsSolid)
open Whole (tenTo value digit? digit?_eq_some digit?_of_isDigit digit_le)

/-! ### Characters -/

/-- The characters of plain notation: digits, the point and the separator. -/
def IsPlain (c : Char) : Prop := c.isDigit = true ∨ c = '_' ∨ c = '.'

theorem isPlain_of_checkDropped {cs : List Char} (h : checkDropped cs = .ok ()) :
    ∀ c ∈ cs, IsPlain c := by
  induction cs with
  | nil => nofun
  | cons c cs ih =>
    rw [checkDropped] at h
    split at h
    · next hc =>
      have hplain : IsPlain c := by
        rcases Bool.or_eq_true_iff.mp hc with hdigit | hline
        · exact .inl hdigit
        · exact .inr (.inl (of_decide_eq_true hline))
      exact List.forall_mem_cons.mpr ⟨hplain, ih h⟩
    · cases h

theorem isPlain_of_finishBy {p : Progress} {digit : Nat} {cs : List Char} {parts : Nat × Nat}
    (h : finishBy p digit cs = .ok parts) : ∀ c ∈ cs, IsPlain c := by
  obtain ⟨_, -, h⟩ := bind_eq_ok.mp h
  obtain ⟨_, hcs, -⟩ := bind_eq_ok.mp h
  exact isPlain_of_checkDropped hcs

/-- No other characters occur in plain notation. -/
theorem isPlain_of_readPlaces {p : Progress} {cs : List Char} {parts : Nat × Nat}
    (h : readPlaces p cs = .ok parts) : ∀ c ∈ cs, IsPlain c := by
  induction cs generalizing p with
  | nil => nofun
  | cons c cs ih =>
    rw [readPlaces] at h
    rw [List.forall_mem_cons]
    split at h
    · next d hd =>
      refine ⟨.inl (digit?_eq_some hd).1, ?_⟩
      split at h
      · exact isPlain_of_finishBy h
      split at h
      · exact ih h
      split at h
      · exact isPlain_of_finishBy h
      · cases h
    · split at h
      · next hline =>
        refine ⟨.inr (.inl (of_decide_eq_true (Bool.and_eq_true_iff.mp hline).1)), ?_⟩
        split at h
        · exact isPlain_of_finishBy h
        · exact ih h
      split at h
      · next hpoint =>
        exact ⟨.inr (.inr (of_decide_eq_true (Bool.and_eq_true_iff.mp hpoint).1)), ih h⟩
      · cases h

/-- A plain number is made of the characters of plain notation and a sign in front of them. -/
theorem exists_places_of_readPlain {cs : List Char} {d : Decimal} (h : readPlain cs = .ok d) :
    ∃ ds negative parts, (cs = ds ∨ cs = '-' :: ds ∨ cs = '+' :: ds) ∧
      readPlaces {} ds = .ok parts ∧ assemble negative parts = .ok d := by
  unfold readPlain at h
  split at h
  · cases h
  · obtain ⟨parts, hparts, h⟩ := bind_eq_ok.mp h
    exact ⟨_, true, parts, .inr (.inl rfl), hparts, h⟩
  · obtain ⟨parts, hparts, h⟩ := bind_eq_ok.mp h
    exact ⟨_, false, parts, .inr (.inr rfl), hparts, h⟩
  · obtain ⟨parts, hparts, h⟩ := bind_eq_ok.mp h
    exact ⟨_, false, parts, .inl rfl, hparts, h⟩

theorem isPlain_or_sign_of_readPlain {cs : List Char} {d : Decimal} (h : readPlain cs = .ok d) :
    ∀ c ∈ cs, IsPlain c ∨ c = '-' ∨ c = '+' := by
  obtain ⟨ds, _, _, hcs, hds, -⟩ := exists_places_of_readPlain h
  have hplain : ∀ c ∈ ds, IsPlain c ∨ c = '-' ∨ c = '+' :=
    fun c hc ↦ .inl (isPlain_of_readPlaces hds c hc)
  rcases hcs with rfl | rfl | rfl
  · exact hplain
  · exact List.forall_mem_cons.mpr ⟨.inr (.inl rfl), hplain⟩
  · exact List.forall_mem_cons.mpr ⟨.inr (.inr rfl), hplain⟩

theorem isExponentMark_iff {c : Char} : isExponentMark c = true ↔ c = 'e' ∨ c = 'E' := by
  rw [isExponentMark, Bool.or_eq_true, decide_eq_true_eq, decide_eq_true_eq]

theorem isExponentMark_of_isDigit {c : Char} (h : c.isDigit = true) :
    isExponentMark c = false := by
  rw [Bool.eq_false_iff, ne_eq, isExponentMark_iff]
  rintro (rfl | rfl) <;> cases h

/-- There is no mark of an exponent in plain notation. -/
theorem isExponentMark_of_readPlain {cs : List Char} {d : Decimal} (h : readPlain cs = .ok d) :
    ∀ c ∈ cs, isExponentMark c = false := by
  intro c hc
  rcases isPlain_or_sign_of_readPlain h c hc with (hdigit | rfl | rfl) | rfl | rfl
  · exact isExponentMark_of_isDigit hdigit
  all_goals decide

theorem isSolid_of_readPlain {cs : List Char} {d : Decimal} (h : readPlain cs = .ok d) :
    IsSolid cs := by
  intro c hc
  rcases isPlain_or_sign_of_readPlain h c hc with (hdigit | rfl | rfl) | rfl | rfl
  · exact Text.isBlank_of_isDigit hdigit
  all_goals decide

theorem isSolid_of_readExponent {cs : List Char} {n : Nat} (h : readExponent cs = .ok n) :
    IsSolid cs := by
  unfold readExponent at h
  split at h
  · next hn =>
    obtain ⟨ds, hcs, hds, -⟩ := Whole.exists_digits_of_readUnsigned hn
    rcases hcs with rfl | rfl
    · exact hds.isSolid
    · exact hds.isSolid.cons (by decide)
  · cases h

theorem isSolid_of_readScientific {excess : Excess} {cs : List Char} {d : Decimal}
    (h : readScientific excess cs = .ok d) : IsSolid cs := by
  have hsplit := List.takeWhile_append_dropWhile (p := (!isExponentMark ·)) (l := cs)
  have hhead := List.head?_dropWhile_not (!isExponentMark ·) cs
  unfold readScientific at h
  split at h
  · cases h
  · next c exponent hdrop =>
    rw [hdrop] at hsplit hhead
    obtain ⟨base, hbase, h⟩ := bind_eq_ok.mp h
    have hmark : Text.isBlank c = false := by
      have hc : isExponentMark c = true := by simpa using hhead
      rcases isExponentMark_iff.mp hc with rfl | rfl <;> decide
    have hexponent : IsSolid exponent := by
      split at h
      · obtain ⟨n, hn, -⟩ := bind_eq_ok.mp h
        exact (isSolid_of_readExponent hn).cons (by decide)
      · obtain ⟨n, hn, -⟩ := bind_eq_ok.mp h
        exact isSolid_of_readExponent hn
    rw [← hsplit]
    exact (isSolid_of_readPlain hbase).append (hexponent.cons hmark)

/-! ### Which notation counts -/

theorem lower_round {base d : Decimal} {exponent : Nat} (h : lower .refuse base exponent = .ok d) :
    lower .round base exponent = .ok d := by
  simp only [lower] at h ⊢
  split at h
  · cases h
  · next hexponent =>
    rw [if_neg hexponent]
    split at h
    · next hscale => rw [if_pos hscale, h]
    · cases h

/-- Strict scientific notation is read alike where excess places may be rounded. -/
theorem readScientific_round {cs : List Char} {d : Decimal}
    (h : readScientific .refuse cs = .ok d) : readScientific .round cs = .ok d := by
  unfold readScientific at h ⊢
  split at h
  · cases h
  · obtain ⟨base, hbase, h⟩ := bind_eq_ok.mp h
    refine bind_eq_ok.mpr ⟨base, hbase, ?_⟩
    split at h
    · obtain ⟨n, hn, h⟩ := bind_eq_ok.mp h
      exact bind_eq_ok.mpr ⟨n, hn, lower_round h⟩
    · exact h

/-- Scientific notation needs a mark, so it is never plain. -/
theorem not_readPlain_of_readScientific {excess : Excess} {cs : List Char} {d d' : Decimal}
    (h : readScientific excess cs = .ok d) : readPlain cs ≠ .ok d' := by
  intro hplain
  have hnone : cs.dropWhile (!isExponentMark ·) = [] := by
    rw [List.dropWhile_eq_nil_iff]
    exact fun c hc ↦ by simp [isExponentMark_of_readPlain hplain c hc]
  rw [readScientific, hnone] at h
  cases h

/-- A number stands in plain notation or in scientific notation that may be rounded; the last resort
of the reader adds nothing. -/
theorem readAny_eq_ok_iff {cs : List Char} {d : Decimal} :
    readAny cs = .ok d ↔ readPlain cs = .ok d ∨ readScientific .round cs = .ok d := by
  constructor
  · intro h
    unfold readAny read at h
    split at h
    · next hread =>
      cases h
      split at hread
      · next hplain =>
        cases hread
        exact .inl hplain
      · split at hread
        · exact .inr hread
        · cases hread
    · exact .inr (readScientific_round h)
  · rintro (h | h)
    · simp only [readAny, read, h]
    · have hmark : cs.any isExponentMark = true := by
        by_contra hne
        have hnone : cs.dropWhile (!isExponentMark ·) = [] := by
          rw [List.dropWhile_eq_nil_iff]
          simpa using hne
        rw [readScientific, hnone] at h
        cases h
      cases hplain : readPlain cs with
      | ok d' => exact absurd hplain (not_readPlain_of_readScientific h)
      | error fault => simp only [readAny, read, hplain, hmark, if_true, h]

/-- What is read as a number has no blanks in it. -/
theorem isSolid_of_readAny {cs : List Char} {d : Decimal} (h : readAny cs = .ok d) :
    IsSolid cs := by
  rcases readAny_eq_ok_iff.mp h with h | h
  · exact isSolid_of_readPlain h
  · exact isSolid_of_readScientific h

end SamplingFrame.Decimal
