import SamplingFrame.Number.Binary64
import SamplingFrame.Proofs.Number.Decimal.Places

/-!
# Floating point numbers as decimal numbers

The shortest digits of a number are at most seventeen, so they fit into a decimal number. Positional
and scientific notation of the same digits are then read as equal numbers, whether they are exact or
rounded to 28 places.
-/

namespace SamplingFrame.Binary64

open Text (IsDigits IsSolid)
open Whole (tenTo tenTo_pos tenTo_succ tenTo_add tenTo_le_tenTo value digits isDigits_digits
  digits_ne_nil length_digits_pos length_digits_le_iff lt_tenTo_length tenTo_length_sub_one_le
  value_digits value_append)

/-! ### Seventeen digits -/

/-- The greatest power of ten below a fraction is ten times too small to reach it. -/
theorem lt_of_log10Fraction {num den a b : Nat} (hnum : 0 < num) (hden : 0 < den)
    (h : (b : Int) - a = log10Fraction num den + 1) : num * tenTo a < den * tenTo b := by
  rw [log10Fraction] at h
  split at h
  · next hle =>
    obtain rfl : b = (digits (num / den)).length + a := by omega
    rw [tenTo_add, ← Nat.mul_assoc]
    refine Nat.mul_lt_mul_of_pos_right ?_ (tenTo_pos a)
    rw [Nat.mul_comm]
    exact (Nat.div_lt_iff_lt_mul hden).mp (lt_tenTo_length _)
  · next hlt =>
    have hquotient : 0 < den / num := Nat.div_pos (by omega) hnum
    have hpos := length_digits_pos (den / num)
    have hpower : num * tenTo ((digits (den / num)).length - 1) ≤ den :=
      Nat.le_trans (Nat.mul_le_mul_left _ (tenTo_length_sub_one_le hquotient))
        (Nat.mul_div_le den num)
    dsimp only at h
    generalize (digits (den / num)).length - 1 = j at h hpower
    have hscaled : num * tenTo (j + b) ≤ den * tenTo b := by
      rw [tenTo_add, ← Nat.mul_assoc]
      exact Nat.mul_le_mul_right _ hpower
    split at h
    · -- One power less on the left makes up for what may be equal here.
      have hsum : j + b = a + 1 := by omega
      have hpositive := Nat.mul_pos hnum (tenTo_pos a)
      rw [hsum, tenTo_succ, Nat.mul_left_comm] at hscaled
      omega
    · next hless =>
      obtain rfl : a = j + b := by omega
      rw [tenTo_add, ← Nat.mul_assoc]
      exact Nat.mul_lt_mul_of_pos_right (Nat.lt_of_not_le hless) (tenTo_pos b)

/-- What is found on a grid is the whole part of the number there, or one more. -/
theorem onGrid?_eq_some {i : Interval} {power : Int} {always : Bool} {n : Nat}
    (h : onGrid? i power always = some n) :
    n ≤ i.value * (if power < 0 then tenTo power.natAbs else 1) /
      (if power < 0 then i.den else i.den * tenTo power.natAbs) + 1 := by
  unfold onGrid? at h
  extract_lets lift unit j floor rest nearer farther at h
  have hnearer : nearer ≤ floor + 1 := by
    simp only [nearer]
    split
    · exact Nat.le_refl _
    · exact Nat.le_succ _
  have hfarther : farther ≤ floor + 1 := by
    simp only [farther]
    split
    · exact Nat.le_refl _
    · exact Nat.le_succ _
  split at h
  · exact Option.some.inj h ▸ hnearer
  split at h
  · exact Option.some.inj h ▸ hfarther
  split at h
  · exact Option.some.inj h ▸ hnearer
  · cases h

theorem le_of_onGrid? {i : Interval} {power : Int} {always : Bool} {n count : Nat}
    (hvalue : 0 < i.value) (hden : 0 < i.den)
    (hpower : power = log10Fraction i.value i.den - count + 1)
    (h : onGrid? i power always = some n) : n ≤ tenTo count := by
  refine Nat.le_trans (onGrid?_eq_some h) (Nat.succ_le_of_lt ?_)
  split
  · rw [Nat.div_lt_iff_lt_mul hden, Nat.mul_comm (tenTo count)]
    exact lt_of_log10Fraction hvalue hden (by omega)
  · have hlt := lt_of_log10Fraction (a := 0) (b := power.natAbs + count) hvalue hden (by omega)
    rw [tenTo_add, ← Nat.mul_assoc] at hlt
    rw [Nat.div_lt_iff_lt_mul (Nat.mul_pos hden (tenTo_pos _)), Nat.mul_comm (tenTo count)]
    exact hlt

theorem digits_searchGrids_le {i : Interval} {left count : Nat} (hvalue : 0 < i.value)
    (hden : 0 < i.den) (hcount : left + count ≤ 18) :
    (searchGrids i (log10Fraction i.value i.den) left count).digits ≤ tenTo 17 := by
  induction left generalizing count with
  | zero => exact Nat.zero_le _
  | succ left ih =>
    unfold searchGrids
    dsimp only
    split
    · next n hn =>
      refine Nat.le_trans (le_of_onGrid? hvalue hden rfl hn) ?_
      exact tenTo_le_tenTo (by omega)
    · exact ih (by omega)

theorem digits_dropZeros_le (n : Nat) (d : Digits) : (dropZeros n d).digits ≤ d.digits := by
  induction n generalizing d with
  | zero => exact Nat.le_refl _
  | succ n ih =>
    rw [dropZeros]
    split
    · exact Nat.le_trans (ih _) (Nat.div_le_self _ _)
    · exact Nat.le_refl _

/-- A number is written with at most seventeen digits. -/
theorem digits_shortest_le (x : Binary64) : x.shortest.digits ≤ tenTo 17 := by
  rw [shortest]
  split
  · exact Nat.zero_le _
  · next hne =>
    have hunit (power : Int) : 0 < (scaleBy 2 1 1 power).1 ∧ 0 < (scaleBy 2 1 1 power).2 := by
      have hpow : 0 < 1 * Nat.pow 2 power.natAbs := Nat.mul_pos Nat.one_pos (Nat.two_pow_pos _)
      rw [scaleBy]
      split
      · exact ⟨Nat.one_pos, hpow⟩
      · exact ⟨hpow, Nat.one_pos⟩
    obtain ⟨hvalue, hden⟩ := hunit (x.exponent - 2)
    refine Nat.le_trans (digits_dropZeros_le _ _) (digits_searchGrids_le ?_ hden (by omega))
    exact Nat.mul_pos (Nat.mul_pos (by decide) (Nat.pos_of_ne_zero hne)) hvalue

/-! ### Notations -/

/-- The parts of the number that digits stand for, once it is rounded to 28 places. -/
def Digits.parts (d : Digits) : Nat × Nat :=
  if d.power < 0 then Decimal.rounded d.digits d.power.natAbs
  else (d.digits * tenTo d.power.natAbs, 0)

/-- Digits that have all their places behind the point. -/
theorem exists_renderPlain_of_neg {d : Digits} (h : d.power < 0) :
    ∃ whole places, renderPlain d = whole ++ '.' :: places ∧ IsDigits whole ∧ IsDigits places ∧
      whole ≠ [] ∧ places.length = d.power.natAbs ∧ value 0 (whole ++ places) = d.digits := by
  have hdigits := Whole.isDigits_leftpad (d.power.natAbs + 1) d.digits
  have hlength :
      d.power.natAbs + 1 ≤ ((digits d.digits).leftpad (d.power.natAbs + 1) '0').length := by
    rw [List.length_leftpad]
    exact Nat.le_max_left _ _
  have hvalue := Whole.value_leftpad (d.power.natAbs + 1) d.digits
  rw [renderPlain, if_neg (by omega)]
  generalize (digits d.digits).leftpad (d.power.natAbs + 1) '0' = ds at hdigits hlength hvalue ⊢
  refine ⟨_, _, rfl, hdigits.take _, hdigits.drop _, ?_, ?_, ?_⟩
  · rw [← List.length_pos_iff, List.length_take]
    omega
  · rw [List.length_drop]
    omega
  · rw [List.take_append_drop, hvalue]

/-- Digits that stand before the point, with zeros behind them. -/
theorem value_renderPlain_of_nonneg {d : Digits} (h : 0 ≤ d.power) :
    IsDigits (renderPlain d) ∧ renderPlain d ≠ [] ∧
      value 0 (renderPlain d) = d.digits * tenTo d.power.natAbs := by
  rw [renderPlain, if_pos h]
  refine ⟨(isDigits_digits _).append (Whole.isDigits_replicate_zero _), ?_, ?_⟩
  · exact List.append_ne_nil_of_left_ne_nil (digits_ne_nil _) _
  · rw [value_append, value_digits, Whole.value_replicate_zero]

theorem exists_head_renderPlain (d : Digits) :
    ∃ c cs, renderPlain d = c :: cs ∧ c.isDigit = true := by
  by_cases h : d.power < 0
  · obtain ⟨whole, places, hd, hwhole, -, hne, -⟩ := exists_renderPlain_of_neg h
    obtain ⟨c, cs, rfl⟩ := List.exists_cons_of_ne_nil hne
    exact ⟨c, cs ++ '.' :: places, hd, hwhole.head⟩
  · obtain ⟨hdigits, hne, -⟩ := value_renderPlain_of_nonneg (Int.not_lt.mp h)
    obtain ⟨c, cs, hd⟩ := List.exists_cons_of_ne_nil hne
    exact ⟨c, cs, hd, (hd ▸ hdigits).head⟩

theorem le_maxCoefficient {n : Nat} (h : n ≤ tenTo 17) : n ≤ Decimal.maxCoefficient :=
  Nat.le_trans h (by decide)

/-- Positional notation is read as the number that the digits stand for. -/
theorem parts_of_renderPlain {d : Digits} {parts : Nat × Nat} (hd : d.digits ≤ tenTo 17)
    (h : Decimal.readPlaces {} (renderPlain d) = .ok parts) : parts = d.parts := by
  rw [Digits.parts]
  split
  · next hneg =>
    obtain ⟨whole, places, hplain, hwhole, hplaces, hne, hlength, hvalue⟩ :=
      exists_renderPlain_of_neg hneg
    have hfit := le_maxCoefficient hd
    rw [← hvalue] at hfit
    rw [hplain, Decimal.readPlaces_point hwhole hplaces hne hfit, hvalue, hlength] at h
    exact (Except.ok.inj h).symm
  · next hnonneg =>
    obtain ⟨hdigits, hne, hvalue⟩ := value_renderPlain_of_nonneg (Int.not_lt.mp hnonneg)
    rw [← hvalue]
    exact ((Decimal.readPlaces_whole_eq_ok_iff hdigits hne).mp h).2

theorem hasParts_of_renderPositional {x : Binary64} {r : Decimal}
    (h : Decimal.readPlain x.renderPositional = .ok r) :
    r.HasParts x.negative x.shortest.parts := by
  obtain ⟨c, cs, hplain, hc⟩ := exists_head_renderPlain x.shortest
  rw [renderPositional, sign, hplain, Decimal.readPlain_sign hc, ← hplain] at h
  obtain ⟨parts, hparts, h⟩ := bind_eq_ok.mp h
  rw [← parts_of_renderPlain (digits_shortest_le x) hparts]
  exact Decimal.hasParts_of_assemble h

/-- The digits of scientific notation: the first one, and the others behind the point. -/
def front (d : Digits) : List Char :=
  (digits d.digits).take 1 ++
    (if (digits d.digits).length = 1 then [] else '.' :: (digits d.digits).drop 1)

theorem exists_head_front (d : Digits) : ∃ c cs, front d = c :: cs ∧ c.isDigit = true := by
  have hdigits := isDigits_digits d.digits
  obtain ⟨c, cs, hds⟩ := List.exists_cons_of_ne_nil (digits_ne_nil d.digits)
  rw [front]
  rw [hds] at hdigits ⊢
  exact ⟨c, _, rfl, hdigits.head⟩

theorem parts_of_front {d : Digits} {parts : Nat × Nat} (hd : d.digits ≤ tenTo 17)
    (h : Decimal.readPlaces {} (front d) = .ok parts) :
    parts = (d.digits, (digits d.digits).length - 1) := by
  have hdigits := isDigits_digits d.digits
  have hvalue := value_digits d.digits
  have hlength : (digits d.digits).length ≤ 18 :=
    (length_digits_le_iff (by decide)).mpr (Nat.lt_of_le_of_lt hd (by decide))
  obtain ⟨c, cs, hds⟩ := List.exists_cons_of_ne_nil (digits_ne_nil d.digits)
  rw [front] at h
  rw [hds] at hdigits hvalue hlength h ⊢
  rw [List.length_cons] at hlength
  have hc : IsDigits [c] := hdigits.take 1
  split at h
  · next hone =>
    have hcs : cs = [] := List.length_eq_zero_iff.mp (Nat.succ.inj hone)
    subst hcs
    rw [← hvalue]
    exact ((Decimal.readPlaces_whole_eq_ok_iff hc (List.cons_ne_nil _ _)).mp h).2
  · have hfit := le_maxCoefficient hd
    rw [← hvalue] at hfit
    have hread := Decimal.readPlaces_point hc hdigits.tail (List.cons_ne_nil _ _) hfit
    have hplaces : cs.length ≤ Decimal.maxScale := by
      rw [Decimal.maxScale]
      omega
    rw [Decimal.rounded, if_pos hplaces] at hread
    rw [← hvalue]
    exact Except.ok.inj (h.symm.trans hread)

theorem isExponentMark_of_mem_front (negative : Bool) (d : Digits) :
    ∀ c ∈ (if negative then ['-'] else []) ++ front d, Decimal.isExponentMark c = false := by
  have hfront : ∀ c ∈ front d, Decimal.isExponentMark c = false := by
    intro c hc
    rcases List.mem_append.mp hc with hc | hc
    · exact Decimal.isExponentMark_of_isDigit ((isDigits_digits _).take 1 c hc)
    · split at hc
      · cases hc
      · rcases List.mem_cons.mp hc with rfl | hc
        · decide
        · exact Decimal.isExponentMark_of_isDigit ((isDigits_digits _).drop 1 c hc)
  intro c hc
  rcases List.mem_append.mp hc with hc | hc
  · cases negative
    · cases hc
    · rw [List.mem_singleton.mp hc]
      decide
  · exact hfront c hc

theorem hasParts_of_front {d : Digits} {negative : Bool} {base : Decimal}
    (hd : d.digits ≤ tenTo 17)
    (h : Decimal.readPlain ((if negative then ['-'] else []) ++ front d) = .ok base) :
    base.HasParts negative (d.digits, (digits d.digits).length - 1) := by
  obtain ⟨c, cs, hfront, hc⟩ := exists_head_front d
  rw [hfront, Decimal.readPlain_sign hc, ← hfront] at h
  obtain ⟨parts, hparts, h⟩ := bind_eq_ok.mp h
  rw [← parts_of_front hd hparts]
  exact Decimal.hasParts_of_assemble h

section Exponent

variable {d : Digits} {negative : Bool} {r : Decimal} (hd : d.digits ≤ tenTo 17)

include hd

/-- A negative exponent says how many places there are in all. -/
theorem hasParts_of_negative_exponent (hexponent : d.power + (digits d.digits).length - 1 < 0)
    (h : Decimal.readScientific .round
      ((if negative then ['-'] else []) ++ renderScientific d) = .ok r) :
    r.HasParts negative d.parts := by
  have hpos := length_digits_pos d.digits
  have hsplit : (if negative then ['-'] else []) ++ renderScientific d =
      ((if negative then ['-'] else []) ++ front d) ++
        'e' :: '-' :: digits (d.power + (digits d.digits).length - 1).natAbs := by
    simp only [renderScientific, front, if_pos hexponent, List.append_assoc]
  rw [hsplit, Decimal.readScientific_minus (isExponentMark_of_mem_front negative d) rfl] at h
  obtain ⟨base, hbase, h⟩ := bind_eq_ok.mp h
  obtain ⟨m, hm, h⟩ := bind_eq_ok.mp h
  obtain rfl := Decimal.eq_of_readExponent (.inl rfl) hm
  have hlowered := Decimal.hasParts_of_lower (hasParts_of_front hd hbase) h
  have hplaces : (digits d.digits).length - 1 +
      (d.power + (digits d.digits).length - 1).natAbs = d.power.natAbs := by omega
  rw [hplaces] at hlowered
  rw [Digits.parts, if_pos (by omega)]
  exact hlowered

/-- An exponent that is not negative leaves places, or none and zeros instead. -/
theorem hasParts_of_nonneg_exponent (hexponent : ¬d.power + (digits d.digits).length - 1 < 0)
    (h : Decimal.readScientific .round
      ((if negative then ['-'] else []) ++ renderScientific d) = .ok r) :
    r.HasParts negative d.parts := by
  have hpos := length_digits_pos d.digits
  have hsplit : (if negative then ['-'] else []) ++ renderScientific d =
      ((if negative then ['-'] else []) ++ front d) ++
        'e' :: '+' :: digits (d.power + (digits d.digits).length - 1).natAbs := by
    simp only [renderScientific, front, if_neg hexponent, List.append_assoc]
  rw [hsplit, Decimal.readScientific_plus (isExponentMark_of_mem_front negative d) rfl] at h
  obtain ⟨base, hbase, h⟩ := bind_eq_ok.mp h
  obtain ⟨m, hm, h⟩ := bind_eq_ok.mp h
  obtain rfl := Decimal.eq_of_readExponent (.inr rfl) hm
  have hfront := hasParts_of_front hd hbase
  have hscale : (digits d.digits).length - 1 ≤ Decimal.maxScale := by
    have hle := base.scale_le
    rw [hfront.scale] at hle
    exact hle
  have hraised := Decimal.hasParts_of_raise hfront h
  rw [Digits.parts]
  generalize (digits d.digits).length = length at hpos hexponent hscale hraised
  split
  · next hneg =>
    have hzeros : (d.power + length - 1).natAbs - (length - 1) = 0 := by omega
    have hplaces : length - 1 - (d.power + length - 1).natAbs = d.power.natAbs := by omega
    have hone : d.digits * tenTo 0 = d.digits := Nat.mul_one _
    rw [hzeros, hplaces, hone] at hraised
    rw [Decimal.rounded, if_pos (by omega)]
    exact hraised
  · next hnonneg =>
    have hzeros : (d.power + length - 1).natAbs - (length - 1) = d.power.natAbs := by omega
    have hplaces : length - 1 - (d.power + length - 1).natAbs = 0 := by omega
    rw [hzeros, hplaces] at hraised
    exact hraised

/-- Scientific notation is read as the number that the digits stand for. -/
theorem hasParts_of_renderScientific
    (h : Decimal.readScientific .round
      ((if negative then ['-'] else []) ++ renderScientific d) = .ok r) :
    r.HasParts negative d.parts := by
  by_cases hexponent : d.power + (digits d.digits).length - 1 < 0
  · exact hasParts_of_negative_exponent hd hexponent h
  · exact hasParts_of_nonneg_exponent hd hexponent h

end Exponent

/-! ### The text of a number -/

/-- Numbers in positional notation that have no places leave room for one. -/
theorem mul_ten_le_maxCoefficient {d : Digits} (hd : 0 ≤ d.power) (hfirst : d.first < 16) :
    d.digits * tenTo d.power.natAbs * 10 ≤ Decimal.maxCoefficient := by
  have hmul := Nat.mul_lt_mul_of_pos_right (lt_tenTo_length d.digits) (tenTo_pos d.power.natAbs)
  rw [← tenTo_add] at hmul
  have hbound : d.digits * tenTo d.power.natAbs < tenTo 16 := by
    refine Nat.lt_of_lt_of_le hmul (tenTo_le_tenTo ?_)
    rw [Digits.first] at hfirst
    omega
  exact Nat.le_trans (Nat.mul_le_mul_right 10 (Nat.le_of_lt hbound)) (by decide)

/-- Digits without places, and a zero behind the point. -/
theorem readPlaces_point_zero {d : Digits} (hd : 0 ≤ d.power) (hfirst : d.first < 16) :
    Decimal.readPlaces {} (renderPlain d ++ ['.', '0']) =
      .ok (d.digits * tenTo d.power.natAbs * 10, 1) := by
  obtain ⟨hdigits, hne, hvalue⟩ := value_renderPlain_of_nonneg hd
  have hzero : IsDigits ['0'] := Whole.isDigits_replicate_zero 1
  have hall : value 0 (renderPlain d ++ ['0']) = d.digits * tenTo d.power.natAbs * 10 := by
    rw [value_append, hvalue]
    exact Whole.value_replicate_zero _ 1
  have hfit := mul_ten_le_maxCoefficient hd hfirst
  rw [← hall] at hfit ⊢
  exact Decimal.readPlaces_point hdigits hzero hne hfit

theorem isSolid_renderPlain (d : Digits) : IsSolid (renderPlain d) := by
  by_cases h : d.power < 0
  · obtain ⟨whole, places, hd, hwhole, hplaces, -⟩ := exists_renderPlain_of_neg h
    rw [hd]
    exact hwhole.isSolid.append (hplaces.isSolid.cons (by decide))
  · exact (value_renderPlain_of_nonneg (Int.not_lt.mp h)).1.isSolid

theorem isSolid_renderScientific (d : Digits) : IsSolid (renderScientific d) := by
  have hdigits := isDigits_digits d.digits
  have hexponent := (isDigits_digits (d.power + (digits d.digits).length - 1).natAbs).isSolid
  rw [renderScientific]
  refine ((hdigits.take 1).isSolid.append ?_).append (Text.IsSolid.cons (by decide) ?_)
  · split
    · nofun
    · exact (hdigits.drop 1).isSolid.cons (by decide)
  · refine hexponent.cons ?_
    split <;> decide

/-- There are no blanks in the text of a number. -/
theorem isSolid_render (x : Binary64) : IsSolid x.render := by
  rw [render]
  refine Text.IsSolid.append ?_ ?_
  · rw [sign]
    split
    · exact Text.IsSolid.cons (by decide) nofun
    · nofun
  · split
    · refine (isSolid_renderPlain _).append ?_
      split
      · exact Text.IsSolid.cons (by decide) (Text.IsSolid.cons (by decide) nofun)
      · nofun
    · exact isSolid_renderScientific _

theorem exists_readPlain_point_zero {d : Digits} (hd : 0 ≤ d.power) (hfirst : d.first < 16)
    (negative : Bool) :
    ∃ r, Decimal.readPlain ((if negative then ['-'] else []) ++ (renderPlain d ++ ['.', '0'])) =
      .ok r ∧ r.HasParts negative (d.digits * tenTo d.power.natAbs * 10, 1) := by
  have hread := readPlaces_point_zero hd hfirst
  obtain ⟨c, cs, hplain, hc⟩ := exists_head_renderPlain d
  have hone : 1 ≤ Decimal.maxScale := by decide
  obtain ⟨r, hr⟩ := Decimal.exists_assemble (mul_ten_le_maxCoefficient hd hfirst) hone negative
  refine ⟨r, ?_, Decimal.hasParts_of_assemble hr⟩
  rw [hplain, List.cons_append] at hread ⊢
  rw [Decimal.readPlain_sign hc, hread]
  exact hr

/-- The text of a number and its positional notation are read as equal numbers. -/
theorem compare_of_render {x : Binary64} {a b : Decimal} (ha : Decimal.readAny x.render = .ok a)
    (hb : Decimal.readPlain x.renderPositional = .ok b) : b.compare a = .eq := by
  have hparts := hasParts_of_renderPositional hb
  rw [render] at ha
  split at ha
  · next hrange =>
    simp only [Bool.and_eq_true, decide_eq_true_eq] at hrange
    split at ha
    · next hnonneg =>
      obtain ⟨r, hr, hpoint⟩ := exists_readPlain_point_zero hnonneg hrange.2 x.negative
      have hsame := Decimal.readAny_eq_ok_iff.mpr (.inl hr)
      rw [← sign, ha] at hsame
      rw [Digits.parts, if_neg (Int.not_lt.mpr hnonneg)] at hparts
      rw [Except.ok.inj hsame]
      exact Decimal.compare_of_hasParts hparts hpoint (Nat.mul_one _).symm
    · rw [List.append_nil] at ha
      have hsame := Decimal.readAny_eq_ok_iff.mpr (.inl hb)
      rw [renderPositional, ha] at hsame
      rw [Except.ok.inj hsame]
      exact Decimal.compare_self b
  · rcases Decimal.readAny_eq_ok_iff.mp ha with hplain | hscientific
    · have hmark := Decimal.isExponentMark_of_readPlain hplain 'e' (by simp [renderScientific])
      cases hmark
    · have ha := hasParts_of_renderScientific (digits_shortest_le x) hscientific
      exact Decimal.compare_of_hasParts hparts ha rfl

end SamplingFrame.Binary64
