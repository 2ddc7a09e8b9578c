import SamplingFrame.Calendar.Timestamp
import SamplingFrame.Proofs.Text.Blank

/-!
# One date in several spellings

Tight spacing, loose spacing and timestamps do not disagree about a date: what is read in tight
spacing or as a strict timestamp is read in loose spacing as the same date, and blanks around it do
not matter then.
-/

namespace SamplingFrame

namespace Text

variable {α : Type}

/-- Whether blanks at the end of a text do not change what is found at its front. -/
def IgnoresBlanks (scan : Scanner α) : Prop :=
  ∀ cs x rest blanks, IsBlank blanks → scan cs = some (x, rest) →
    scan (cs ++ blanks) = some (x, rest ++ blanks)

/-- No digit is found among blanks. -/
theorem takeWhile_isDigit_append (cs : List Char) {blanks : List Char} (hb : IsBlank blanks) :
    (cs ++ blanks).takeWhile Char.isDigit = cs.takeWhile Char.isDigit := by
  have hblanks : blanks.takeWhile Char.isDigit = [] := by
    cases blanks with
    | nil => rfl
    | cons c blanks =>
      have hc : c.isDigit = false := by
        by_contra hne
        have hsolid := isBlank_of_isDigit (by simpa using hne)
        rw [hb c List.mem_cons_self] at hsolid
        cases hsolid
      rw [List.takeWhile_cons, if_neg (by simp [hc])]
  rw [List.takeWhile_append, hblanks, List.append_nil]
  split
  · next hlength => exact ((List.takeWhile_sublist _).eq_of_length hlength).symm
  · rfl

theorem ignoresBlanks_scanDigits (width : Option Nat) : IgnoresBlanks (scanDigits width) := by
  intro cs n rest blanks hb h
  have hle := (List.takeWhile_sublist Char.isDigit (l := cs)).length_le
  simp only [scanDigits, takeWhile_isDigit_append cs hb] at h ⊢
  cases width with
  | none =>
    dsimp only at h ⊢
    split at h
    · cases h
    · next hne =>
      cases h
      rw [if_neg hne, List.drop_append_of_le_length hle]
  | some w =>
    dsimp only at h ⊢
    split at h
    · cases h
    · next hne =>
      cases h
      have hcut := Nat.le_trans (List.length_take_le' w (cs.takeWhile Char.isDigit)) hle
      rw [if_neg hne, List.drop_append_of_le_length hcut]

theorem ignoresBlanks_scanChar (c : Char) : IgnoresBlanks (scanChar c) := by
  intro cs x rest blanks _ h
  cases cs with
  | nil => cases h
  | cons d cs =>
    rw [scanChar] at h
    rw [List.cons_append, scanChar]
    split at h
    · next heq =>
      cases h
      rw [if_pos heq]
    · cases h

/-- A scanner that finds nothing in the empty text may skip blanks first. -/
theorem IgnoresBlanks.trimStart {scan : Scanner α} (h : IgnoresBlanks scan)
    (hnil : scan [] = none) : IgnoresBlanks fun cs ↦ scan (trimStart cs) := by
  intro cs x rest blanks hb hx
  dsimp only at hx ⊢
  have hne : Text.trimStart cs ≠ [] := by
    intro he
    rw [he, hnil] at hx
    cases hx
  rw [trimStart_append hne]
  exact h _ _ _ _ hb hx

/-- A number of full width is one of at most that width. -/
theorem scanDigits_of_scanExact {width n : Nat} {cs rest : List Char} (hw : 0 < width)
    (h : scanExact width cs = some (n, rest)) : scanDigits (some width) cs = some (n, rest) := by
  simp only [scanExact, Bool.and_eq_true, decide_eq_true_eq] at h
  split at h
  · next hrun =>
    obtain ⟨hlength, hdigits⟩ := hrun
    have hall : ∀ c ∈ cs.take width, c.isDigit = true := List.all_eq_true.mp hdigits
    have hsplit : cs.takeWhile Char.isDigit =
        cs.take width ++ (cs.drop width).takeWhile Char.isDigit := by
      rw [← List.takeWhile_append_of_pos hall, List.take_append_drop]
    have hrun : (cs.takeWhile Char.isDigit).take width = cs.take width := by
      rw [hsplit, List.take_append_of_le_length (Nat.le_of_eq hlength.symm), List.take_take,
        Nat.min_self]
    have hne : (cs.take width).isEmpty = false := by
      rw [List.isEmpty_eq_false_iff, ← List.length_pos_iff, hlength]
      exact hw
    cases h
    simp [scanDigits, hrun, hne, hlength]
  · cases h

theorem isDigit_head_of_scanExact {width n : Nat} {cs rest : List Char} (hw : 0 < width)
    (h : scanExact width cs = some (n, rest)) : ∃ c ds, cs = c :: ds ∧ c.isDigit = true := by
  obtain ⟨width, rfl⟩ := Nat.exists_eq_add_one.mpr hw
  simp only [scanExact] at h
  cases cs with
  | nil => simp at h
  | cons c ds =>
    refine ⟨c, ds, rfl, ?_⟩
    by_contra hc
    simp [hc] at h

end Text

namespace Date

open Text

/-! ### Blanks around a date -/

theorem ignoresBlanks_scanYear : IgnoresBlanks scanYear := by
  intro cs year rest blanks hb h
  unfold scanYear at h
  split at h <;> obtain ⟨⟨n, rest'⟩, hn, hx⟩ := Option.map_eq_some_iff.mp h <;> cases hx
  · rw [List.cons_append, scanYear, ignoresBlanks_scanDigits none _ _ _ _ hb hn]
    rfl
  · rw [List.cons_append, scanYear, ignoresBlanks_scanDigits none _ _ _ _ hb hn]
    rfl
  · next hminus hplus =>
    cases cs with
    | nil => cases hn
    | cons c cs =>
      have hn := ignoresBlanks_scanDigits (some 4) _ _ _ _ hb hn
      rw [List.cons_append] at hn ⊢
      rw [scanYear, hn]
      · rfl
      · intro ds hds
        exact hminus cs (by rw [(List.cons.inj hds).1])
      · intro ds hds
        exact hplus cs (by rw [(List.cons.inj hds).1])

theorem ignoresBlanks_scanDashed : IgnoresBlanks (scanDashed .loose) := by
  have hyear := ignoresBlanks_scanYear.trimStart rfl
  have hdash := (ignoresBlanks_scanChar '-').trimStart rfl
  have hdigits := (ignoresBlanks_scanDigits (some 2)).trimStart rfl
  intro cs date rest blanks hb h
  simp only [scanDashed, scanDash, if_true, Option.bind_eq_bind, Option.bind_eq_some_iff,
    Prod.exists] at h ⊢
  obtain ⟨year, cs₁, h₁, _, cs₂, h₂, month, cs₃, h₃, _, cs₄, h₄, day, cs₅, h₅, d, hd, h⟩ := h
  cases h
  exact ⟨year, _, hyear _ _ _ _ hb h₁, (), _, hdash _ _ _ _ hb h₂, month, _,
    hdigits _ _ _ _ hb h₃, (), _, hdash _ _ _ _ hb h₄, day, _, hdigits _ _ _ _ hb h₅, _, hd, rfl⟩

theorem scanDashed_trimStart (spacing : Spacing) (cs : List Char) :
    scanDashed spacing (trimStart cs) = scanDashed spacing cs := by
  rw [scanDashed, scanDashed, trimStart_trimStart]

/-- A date that is found in a text without the blanks around it is found in the text itself. -/
theorem scanDashed_of_trim {cs rest : List Char} {d : Date}
    (h : scanDashed .loose (trim cs) = some (d, rest)) :
    ∃ rest', scanDashed .loose cs = some (d, rest') := by
  obtain ⟨blanks, hb, hcs⟩ := exists_trimEnd_append (trimStart cs)
  have hall := ignoresBlanks_scanDashed _ _ _ _ hb h
  rw [trim, hcs, scanDashed_trimStart] at hall
  exact ⟨_, hall⟩

/-! ### From tight to loose -/

theorem scanDash_tight (cs : List Char) : scanDash .tight cs = scanChar '-' cs := rfl

theorem scanDash_loose {cs rest : List Char} (h : scanChar '-' cs = some ((), rest)) :
    scanDash .loose cs = some ((), rest) := by
  cases cs with
  | nil => cases h
  | cons c cs =>
    have hc : c = '-' := by
      by_contra hne
      rw [scanChar, if_neg hne] at h
      cases h
    have hstart : trimStart (c :: cs) = c :: cs :=
      trimStart_of_head fun d hd ↦ by rw [← Option.mem_some.mp hd, hc]; decide
    rw [scanDash, if_pos rfl, hstart, h]

/-- A date in tight spacing is one in loose spacing. -/
theorem scanDashed_loose {cs rest : List Char} {d : Date}
    (h : scanDashed .tight cs = some (d, rest)) : scanDashed .loose cs = some (d, rest) := by
  simp only [scanDashed, scanDash_tight, Option.bind_eq_bind, Option.bind_eq_some_iff,
    Prod.exists] at h ⊢
  obtain ⟨year, cs₁, h₁, _, cs₂, h₂, month, cs₃, h₃, _, cs₄, h₄, h⟩ := h
  exact ⟨year, cs₁, h₁, (), cs₂, scanDash_loose h₂, month, cs₃, h₃, (), cs₄, scanDash_loose h₄, h⟩

theorem trimStart_of_scanExact {width n : Nat} {cs rest : List Char} (hw : 0 < width)
    (h : scanExact width cs = some (n, rest)) : trimStart cs = cs := by
  obtain ⟨c, ds, rfl, hc⟩ := isDigit_head_of_scanExact hw h
  exact trimStart_of_head fun d hd ↦ by
    rw [← Option.mem_some.mp hd]
    exact isBlank_of_isDigit hc

/-- Digits without a sign are at most four. -/
theorem scanYear_of_isDigit {c : Char} (hc : c.isDigit = true) (cs : List Char) :
    scanYear (c :: cs) = (scanDigits (some 4) (c :: cs)).map fun (n, rest) ↦ ((n : Int), rest) := by
  unfold scanYear
  split
  · next heq =>
    rw [(List.cons.inj heq).1] at hc
    cases hc
  · next heq =>
    rw [(List.cons.inj heq).1] at hc
    cases hc
  · rfl

/-- Four digits are a year. -/
theorem scanYear_of_scanExact {n : Nat} {cs rest : List Char}
    (h : scanExact 4 cs = some (n, rest)) : scanYear cs = some ((n : Int), rest) := by
  obtain ⟨c, ds, rfl, hc⟩ := isDigit_head_of_scanExact (by decide) h
  rw [scanYear_of_isDigit hc, scanDigits_of_scanExact (by decide) h]
  rfl

/-- A strict timestamp begins with its date in tight spacing, and goes on after it. -/
theorem scanDashed_tight_of_readStrict? {cs : List Char} {t : Timestamp}
    (h : Timestamp.readStrict? cs = some t) :
    ∃ rest, rest ≠ [] ∧ scanDashed .tight cs = some (t.date, rest) := by
  obtain ⟨⟨year, cs₁⟩, h₁, h⟩ := Option.bind_eq_some_iff.mp h
  obtain ⟨⟨_, cs₂⟩, h₂, h⟩ := Option.bind_eq_some_iff.mp h
  obtain ⟨⟨month, cs₃⟩, h₃, h⟩ := Option.bind_eq_some_iff.mp h
  obtain ⟨⟨_, cs₄⟩, h₄, h⟩ := Option.bind_eq_some_iff.mp h
  obtain ⟨⟨day, cs₅⟩, h₅, h⟩ := Option.bind_eq_some_iff.mp h
  obtain ⟨⟨_, _⟩, hseparator, h⟩ := Option.bind_eq_some_iff.mp h
  -- The time of day and the offset only have to be there.
  obtain ⟨⟨_, _⟩, -, h⟩ := Option.bind_eq_some_iff.mp h
  obtain ⟨⟨_, _⟩, -, h⟩ := Option.bind_eq_some_iff.mp h
  obtain ⟨⟨_, _⟩, -, h⟩ := Option.bind_eq_some_iff.mp h
  obtain ⟨⟨_, _⟩, -, h⟩ := Option.bind_eq_some_iff.mp h
  obtain ⟨⟨_, _⟩, -, h⟩ := Option.bind_eq_some_iff.mp h
  obtain ⟨⟨_, _⟩, -, h⟩ := Option.bind_eq_some_iff.mp h
  obtain ⟨⟨_, _⟩, -, h⟩ := Option.bind_eq_some_iff.mp h
  obtain ⟨_, -, h⟩ := Option.bind_eq_some_iff.mp h
  obtain ⟨date, hdate, h⟩ := Option.bind_eq_some_iff.mp h
  cases h
  refine ⟨cs₅, ?_, ?_⟩
  · rintro rfl
    cases hseparator
  simp only [scanDashed, scanDash_tight, Option.bind_eq_bind, Option.bind_eq_some_iff, Prod.exists]
  refine ⟨year, cs₁, ?_, (), cs₂, h₂, month, cs₃, ?_, (), cs₄, h₄, day, cs₅, ?_, date, hdate, rfl⟩
  · rw [trimStart_of_scanExact (by decide) h₁, scanYear_of_scanExact h₁]
  · rw [trimStart_of_scanExact (by decide) h₃, scanDigits_of_scanExact (by decide) h₃]
  · rw [trimStart_of_scanExact (by decide) h₅, scanDigits_of_scanExact (by decide) h₅]

/-- The date of a strict timestamp is one in loose spacing. -/
theorem scanDashed_of_readStrict? {cs : List Char} {t : Timestamp}
    (h : Timestamp.readStrict? cs = some t) :
    ∃ rest, scanDashed .loose cs = some (t.date, rest) := by
  obtain ⟨rest, -, hscan⟩ := scanDashed_tight_of_readStrict? h
  exact ⟨rest, scanDashed_loose hscan⟩

end Date

end SamplingFrame
