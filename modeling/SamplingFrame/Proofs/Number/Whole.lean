import SamplingFrame.Number.Whole
import SamplingFrame.Proofs.Text.Blank

/-!
# Reading whole numbers

The reader of whole numbers gives the value of the digits, and gives it exactly if there are only
digits and the value is within bounds.
-/

namespace SamplingFrame

/-- A text of decimal digits alone. -/
def Text.IsDigits (cs : List Char) : Prop := ∀ c ∈ cs, c.isDigit = true

namespace Text.IsDigits

variable {c : Char} {cs ds : List Char}

theorem head (h : IsDigits (c :: cs)) : c.isDigit = true := h c List.mem_cons_self

theorem tail (h : IsDigits (c :: cs)) : IsDigits cs := fun d hd ↦ h d (List.mem_cons_of_mem c hd)

theorem append (hcs : IsDigits cs) (hds : IsDigits ds) : IsDigits (cs ++ ds) := by
  intro c hc
  rcases List.mem_append.mp hc with hc | hc
  · exact hcs c hc
  · exact hds c hc

theorem take (h : IsDigits cs) (n : Nat) : IsDigits (cs.take n) :=
  fun _ hc ↦ h _ (List.mem_of_mem_take hc)

theorem drop (h : IsDigits cs) (n : Nat) : IsDigits (cs.drop n) :=
  fun _ hc ↦ h _ (List.mem_of_mem_drop hc)

theorem isSolid (h : IsDigits cs) : IsSolid cs := fun c hc ↦ isBlank_of_isDigit (h c hc)

/-- Digits are the same in lower case. -/
theorem map_toLower (h : IsDigits cs) : cs.map Char.toLower = cs := by
  have hlower : ∀ c ∈ cs, c.toLower = c := by
    intro c hc
    have hle := (Char.isDigit_iff_toNat.mp (h c hc)).2
    refine dif_neg fun hupper ↦ ?_
    have hge : 'A'.toNat ≤ c.toNat := UInt32.le_iff_toNat_le.mp hupper.1
    simp only [Char.reduceToNat] at hle hge
    omega
  rw [List.map_congr_left hlower, List.map_id']

/-- Digits end where the text ends or goes on with another character. -/
theorem takeWhile_append (h : IsDigits cs) (hds : ∀ d ∈ ds.head?, d.isDigit = false) :
    (cs ++ ds).takeWhile Char.isDigit = cs := by
  rw [List.takeWhile_append_of_pos h]
  cases ds with
  | nil => rw [List.takeWhile_nil, List.append_nil]
  | cons d ds => simp [hds d rfl]

end Text.IsDigits

theorem Text.isDigit_head_cons {c : Char} (hc : c.isDigit = false) (cs : List Char) :
    ∀ d ∈ (c :: cs).head?, d.isDigit = false := by
  intro d hd
  rwa [← Option.mem_some.mp hd]

namespace Whole

open Text (IsDigits)

/-! ### Powers of ten -/

theorem tenTo_pos (n : Nat) : 0 < tenTo n := Nat.pow_pos (by decide)

theorem tenTo_succ (n : Nat) : tenTo (n + 1) = 10 * tenTo n := Nat.pow_succ'

theorem tenTo_add (m n : Nat) : tenTo (m + n) = tenTo m * tenTo n := Nat.pow_add 10 m n

theorem tenTo_le_tenTo {m n : Nat} (h : m ≤ n) : tenTo m ≤ tenTo n :=
  Nat.pow_le_pow_right (by decide) h

/-! ### Digits -/

/-- The value of digits that follow a number. -/
def value (acc : Nat) (cs : List Char) : Nat := Nat.ofDigitChars 10 cs acc

theorem digit?_of_isDigit {c : Char} (h : c.isDigit = true) :
    digit? c = some (c.toNat - '0'.toNat) := by
  rw [digit?, if_pos h]

theorem digit?_eq_some {c : Char} {d : Nat} (h : digit? c = some d) :
    c.isDigit = true ∧ d = c.toNat - '0'.toNat := by
  rw [digit?] at h
  split at h
  · next hc =>
    cases h
    exact ⟨hc, rfl⟩
  · cases h

theorem digit_le {c : Char} (h : c.isDigit = true) : c.toNat - '0'.toNat ≤ 9 := by
  have hle := (Char.isDigit_iff_toNat.mp h).2
  simp only [Char.reduceToNat] at hle ⊢
  omega

/-! ### The value of digits -/

@[simp]
theorem value_nil (acc : Nat) : value acc [] = acc := rfl

theorem value_cons (acc : Nat) (c : Char) (cs : List Char) :
    value acc (c :: cs) = value (acc * 10 + (c.toNat - '0'.toNat)) cs := by
  rw [value, value, Nat.ofDigitChars_cons, Nat.mul_comm]

theorem value_append (acc : Nat) (cs ds : List Char) :
    value acc (cs ++ ds) = value (value acc cs) ds :=
  Nat.ofDigitChars_append acc

/-- The number in front counts as often as there are places behind it. -/
theorem value_eq (acc : Nat) (cs : List Char) :
    value acc cs = acc * tenTo cs.length + value 0 cs := by
  rw [value, Nat.ofDigitChars_eq_ofDigitChars_zero, Nat.mul_comm]
  rfl

theorem le_value (acc : Nat) (cs : List Char) : acc ≤ value acc cs := by
  rw [value_eq]
  exact Nat.le_trans (Nat.le_mul_of_pos_right acc (tenTo_pos _)) (Nat.le_add_right _ _)

theorem value_lt {cs : List Char} (h : IsDigits cs) : value 0 cs < tenTo cs.length := by
  induction cs with
  | nil => decide
  | cons c cs ih =>
    have hc := digit_le h.head
    have hcs := ih h.tail
    have hle : (c.toNat - '0'.toNat) * tenTo cs.length ≤ 9 * tenTo cs.length :=
      Nat.mul_le_mul_right _ hc
    rw [value_cons, value_eq, Nat.zero_mul, Nat.zero_add, List.length_cons, tenTo_succ]
    omega

/-! ### The digits of a number -/

theorem isDigits_digits (n : Nat) : IsDigits (digits n) :=
  fun _ hc ↦ Nat.isDigit_of_mem_toDigits (by decide) (by decide) hc

@[simp]
theorem value_digits (n : Nat) : value 0 (digits n) = n := Nat.ofDigitChars_ten_toDigits

theorem digits_injective : Function.Injective digits :=
  Function.LeftInverse.injective value_digits

theorem digits_ne_nil (n : Nat) : digits n ≠ [] := Nat.toDigits_ne_nil

theorem length_digits_pos (n : Nat) : 0 < (digits n).length := Nat.length_toDigits_pos

/-- How many digits a number has. -/
theorem length_digits_le_iff {n k : Nat} (hk : 0 < k) : (digits n).length ≤ k ↔ n < tenTo k :=
  Nat.length_toDigits_le_iff (by decide) hk

theorem lt_tenTo_length (n : Nat) : n < tenTo (digits n).length :=
  (length_digits_le_iff (length_digits_pos n)).mp (Nat.le_refl _)

/-- A number reaches the power of ten that its first digit counts. -/
theorem tenTo_length_sub_one_le {n : Nat} (h : 0 < n) : tenTo ((digits n).length - 1) ≤ n := by
  have hpos := length_digits_pos n
  by_contra hnot
  by_cases hone : (digits n).length = 1
  · rw [hone] at hnot
    exact hnot h
  · have hshort := (length_digits_le_iff (by omega)).mpr (Nat.lt_of_not_le hnot)
    omega

/-- No number of several digits starts with a zero. -/
theorem digits_ne_zero_cons (n : Nat) (c : Char) (cs : List Char) : digits n ≠ '0' :: c :: cs := by
  intro h
  by_cases hn : n = 0
  · subst hn
    cases h
  · have hle := tenTo_length_sub_one_le (Nat.pos_of_ne_zero hn)
    have hdigits := isDigits_digits n
    have hvalue := value_digits n
    rw [h] at hle hdigits hvalue
    rw [value_cons] at hvalue
    have hlt := value_lt hdigits.tail
    simp only [List.length_cons, Nat.add_sub_cancel] at hle hlt
    exact absurd hlt (Nat.not_lt.mpr (Nat.le_trans hle (Nat.le_of_eq hvalue.symm)))

/-- Zeros behind a number multiply it. -/
theorem value_replicate_zero (acc n : Nat) :
    value acc (List.replicate n '0') = acc * tenTo n := by
  rw [value, Nat.ofDigitChars_replicate_zero, Nat.mul_comm]
  rfl

theorem isDigits_replicate_zero (n : Nat) : IsDigits (List.replicate n '0') := by
  intro c hc
  rw [List.eq_of_mem_replicate hc]
  decide

/-- Zeros in front of a number do not change it. -/
theorem value_leftpad (width n : Nat) : value 0 ((digits n).leftpad width '0') = n := by
  rw [List.leftpad, value_append, value_replicate_zero, Nat.zero_mul, value_digits]

theorem isDigits_leftpad (width n : Nat) : IsDigits ((digits n).leftpad width '0') :=
  (isDigits_replicate_zero _).append (isDigits_digits n)

/-! ### Readers -/

theorem readDigits_eq_ok_iff {limit acc n : Nat} {excess : Fault} {cs : List Char}
    (hacc : acc ≤ limit) :
    readDigits limit excess acc cs = .ok n ↔ IsDigits cs ∧ value acc cs = n ∧ n ≤ limit := by
  induction cs generalizing acc with
  | nil =>
    rw [readDigits, value_nil, Except.ok.injEq]
    constructor
    · rintro rfl
      exact ⟨nofun, rfl, hacc⟩
    · exact fun h ↦ h.2.1
  | cons c cs ih =>
    by_cases hc : c.isDigit = true
    · rw [readDigits, digit?_of_isDigit hc, value_cons]
      dsimp only
      split
      · next hlt =>
        constructor
        · intro h
          cases h
        · rintro ⟨-, rfl, hle⟩
          exact absurd (Nat.lt_of_lt_of_le hlt (le_value _ cs)) (Nat.not_lt.mpr hle)
      · next hle =>
        rw [ih (Nat.not_lt.mp hle)]
        constructor
        · rintro ⟨hcs, hn⟩
          exact ⟨List.forall_mem_cons.mpr ⟨hc, hcs⟩, hn⟩
        · rintro ⟨hcs, hn⟩
          exact ⟨hcs.tail, hn⟩
    · rw [readDigits, digit?, if_neg hc]
      constructor
      · intro h
        cases h
      · rintro ⟨hcs, -⟩
        exact absurd hcs.head hc

theorem readMagnitude_eq_ok_iff {limit n : Nat} {excess : Fault} {cs : List Char} :
    readMagnitude limit excess cs = .ok n ↔
      cs ≠ [] ∧ IsDigits cs ∧ value 0 cs = n ∧ n ≤ limit := by
  cases cs with
  | nil => simp [readMagnitude]
  | cons c cs =>
    rw [readMagnitude, readDigits_eq_ok_iff (Nat.zero_le limit)]
    · simp
    · nofun

/-- A number with or without a plus is read as the value of its digits. -/
theorem exists_digits_of_readUnsigned {limit n : Nat} {cs : List Char}
    (h : readUnsigned limit cs = .ok n) :
    ∃ ds, (cs = ds ∨ cs = '+' :: ds) ∧ IsDigits ds ∧ value 0 ds = n := by
  unfold readUnsigned at h
  split at h
  · cases h
  · obtain ⟨-, hds, hn, -⟩ := readMagnitude_eq_ok_iff.mp h
    exact ⟨_, .inr rfl, hds, hn⟩
  · obtain ⟨-, hds, hn, -⟩ := readMagnitude_eq_ok_iff.mp h
    exact ⟨_, .inl rfl, hds, hn⟩

/-! ### Words -/

/-- A whole number that a document holds as one: it fits a word of 64 bits with or without sign. -/
def IsWord (n : Int) : Prop := -9223372036854775808 ≤ n ∧ n ≤ 18446744073709551615

end Whole

end SamplingFrame
