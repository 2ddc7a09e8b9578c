import SamplingFrame.Proofs.Number.Decimal

/-!
# Decimal places

Digits with a point among them are read as the value of the digits with as many places as stand
after the point. What does not fit into 28 places is rounded, and dropping digit by digit comes to
the same as rounding the whole coefficient once.
-/

namespace SamplingFrame.Decimal

open Text (IsDigits)
open Whole (tenTo tenTo_pos tenTo_succ value digit?_of_isDigit digit_le value_cons value_append
  value_eq le_value value_lt)

/-! ### Digits that fit -/

namespace Progress

@[simp]
theorem coefficient_push (p : Progress) (digit : Nat) :
    (p.push digit).coefficient = p.coefficient * 10 + digit := rfl

@[simp]
theorem scale_push (p : Progress) (digit : Nat) :
    (p.push digit).scale = if p.seenPoint then p.scale + 1 else p.scale := rfl

@[simp]
theorem seenPoint_push (p : Progress) (digit : Nat) : (p.push digit).seenPoint = p.seenPoint := rfl

@[simp]
theorem seenDigit_push (p : Progress) (digit : Nat) : (p.push digit).seenDigit = true := rfl

/-- The progress after digits that fit. -/
def pushAll (p : Progress) (ds : List Char) : Progress :=
  ds.foldl (fun p c ↦ p.push (c.toNat - '0'.toNat)) p

theorem pushAll_cons (p : Progress) (c : Char) (ds : List Char) :
    p.pushAll (c :: ds) = (p.push (c.toNat - '0'.toNat)).pushAll ds := by
  rw [pushAll, List.foldl_cons, pushAll]

@[simp]
theorem coefficient_pushAll (p : Progress) (ds : List Char) :
    (p.pushAll ds).coefficient = value p.coefficient ds := by
  induction ds generalizing p with
  | nil => rfl
  | cons c ds ih => rw [pushAll_cons, ih, value_cons, coefficient_push]

@[simp]
theorem seenPoint_pushAll (p : Progress) (ds : List Char) :
    (p.pushAll ds).seenPoint = p.seenPoint := by
  induction ds generalizing p with
  | nil => rfl
  | cons c ds ih => rw [pushAll_cons, ih, seenPoint_push]

@[simp]
theorem scale_pushAll (p : Progress) (ds : List Char) :
    (p.pushAll ds).scale = if p.seenPoint then p.scale + ds.length else p.scale := by
  induction ds generalizing p with
  | nil => simp [pushAll]
  | cons c ds ih =>
    rw [pushAll_cons, ih, seenPoint_push, scale_push, List.length_cons]
    split
    · omega
    · rfl

@[simp]
theorem seenDigit_pushAll (p : Progress) (ds : List Char) :
    (p.pushAll ds).seenDigit = (p.seenDigit || !ds.isEmpty) := by
  induction ds generalizing p with
  | nil => simp [pushAll]
  | cons c ds ih => simp [pushAll_cons, ih]

end Progress

/-- Digits that fit are read one after the other. -/
theorem readPlaces_append {p : Progress} {ds : List Char} (hds : IsDigits ds)
    (hfit : value p.coefficient ds ≤ maxCoefficient)
    (hplaces : p.seenPoint = true → p.scale + ds.length ≤ maxScale) (rest : List Char) :
    readPlaces p (ds ++ rest) = readPlaces (p.pushAll ds) rest := by
  induction ds generalizing p with
  | nil => rfl
  | cons c ds ih =>
    rw [value_cons] at hfit
    have hnext := Nat.le_trans (le_value _ ds) hfit
    have hroom : p.isFull = false := by
      cases hp : p.seenPoint with
      | false => simp [Progress.isFull, hp]
      | true =>
        have hlt := hplaces hp
        rw [List.length_cons] at hlt
        have hscale : ¬maxScale ≤ p.scale := by omega
        simp [Progress.isFull, hscale]
    have hstep : readPlaces p (c :: (ds ++ rest)) =
        readPlaces (p.push (c.toNat - '0'.toNat)) (ds ++ rest) := by
      rw [readPlaces, digit?_of_isDigit hds.head]
      simp only [hroom, Bool.false_eq_true, if_false, if_pos hnext]
    rw [List.cons_append, hstep, ih hds.tail hfit]
    · rfl
    · intro hp
      rw [Progress.seenPoint_push] at hp
      have hlt := hplaces hp
      rw [List.length_cons] at hlt
      rw [Progress.scale_push, if_pos hp]
      omega

/-- Digits before the point fit if there is a number at all. -/
theorem value_le_of_readPlaces {p : Progress} {ds rest : List Char} {parts : Nat × Nat}
    (hds : IsDigits ds) (hp : p.seenPoint = false) (hacc : p.coefficient ≤ maxCoefficient)
    (h : readPlaces p (ds ++ rest) = .ok parts) : value p.coefficient ds ≤ maxCoefficient := by
  induction ds generalizing p with
  | nil => exact hacc
  | cons c ds ih =>
    rw [List.cons_append, readPlaces, digit?_of_isDigit hds.head] at h
    simp only [Progress.isFull, hp, Bool.false_and, Bool.false_eq_true, if_false] at h
    split at h
    · next hle =>
      rw [value_cons]
      exact ih (p := p.push _) hds.tail hp hle h
    · cases h

/-- A whole number is read as the value of its digits, if that fits. -/
theorem readPlaces_whole_eq_ok_iff {ds : List Char} (hds : IsDigits ds) (hne : ds ≠ [])
    {parts : Nat × Nat} :
    readPlaces {} ds = .ok parts ↔ value 0 ds ≤ maxCoefficient ∧ parts = (value 0 ds, 0) := by
  have hread (hfit : value 0 ds ≤ maxCoefficient) : readPlaces {} ds = .ok (value 0 ds, 0) := by
    have happend := readPlaces_append (p := {}) hds hfit nofun []
    rw [List.append_nil] at happend
    rw [happend]
    simp [readPlaces, hne]
  constructor
  · intro h
    have hfit : value 0 ds ≤ maxCoefficient := by
      rw [← List.append_nil ds] at h
      exact value_le_of_readPlaces (p := {}) hds rfl (Nat.zero_le _) h
    rw [hread hfit] at h
    exact ⟨hfit, (Except.ok.inj h).symm⟩
  · rintro ⟨hfit, rfl⟩
    exact hread hfit

/-! ### Digits that do not fit -/

/-- The parts of a number with a given count of decimal places, once it is rounded to 28. -/
def rounded (coefficient places : Nat) : Nat × Nat :=
  if places ≤ maxScale then (coefficient, places)
  else (shorten coefficient (places - maxScale), maxScale)

/-- The first dropped digit decides where the half lies. -/
theorem shorten_value {c : Char} {ds : List Char} (hc : c.isDigit = true) (hds : IsDigits ds)
    (coefficient : Nat) :
    shorten (value coefficient (c :: ds)) (ds.length + 1) =
      if c.toNat - '0'.toNat < 5 then coefficient else coefficient + 1 := by
  have hlt := value_lt hds
  have hdigit := digit_le hc
  rw [shorten, tenTo_succ, value_cons, value_eq]
  generalize c.toNat - '0'.toNat = digit at hdigit ⊢
  generalize tenTo ds.length = unit at hlt ⊢
  have hhalf : 10 * unit / 2 = 5 * unit := by omega
  have hfront : (coefficient * 10 + digit) * unit = coefficient * (10 * unit) + digit * unit := by
    rw [Nat.add_mul, Nat.mul_assoc]
  rw [hhalf, hfront]
  split
  · next hdown =>
    have hle : digit * unit ≤ 4 * unit := Nat.mul_le_mul_right _ (by omega)
    apply Nat.div_eq_of_lt_le
    · omega
    · rw [Nat.add_one_mul coefficient]
      omega
  · next hup =>
    have hle : 5 * unit ≤ digit * unit := Nat.mul_le_mul_right _ (by omega)
    have hge : digit * unit ≤ 9 * unit := Nat.mul_le_mul_right _ hdigit
    apply Nat.div_eq_of_lt_le
    · rw [Nat.add_one_mul coefficient]
      omega
    · rw [Nat.add_one_mul (coefficient + 1), Nat.add_one_mul coefficient]
      omega

theorem checkDropped_of_isDigits {ds : List Char} (hds : IsDigits ds) :
    checkDropped ds = .ok () := by
  induction ds with
  | nil => rfl
  | cons c ds ih => simp [checkDropped, hds.head, ih hds.tail]

/-- After the last place the next digit rounds, and the others are dropped. -/
theorem readPlaces_of_isFull {p : Progress} {c : Char} {ds : List Char} (hp : p.isFull = true)
    (hc : c.isDigit = true) (hds : IsDigits ds) (hlt : p.coefficient < maxCoefficient) :
    readPlaces p (c :: ds) =
      .ok (shorten (value p.coefficient (c :: ds)) (ds.length + 1), p.scale) := by
  have hround : roundBy p.coefficient p.scale (c.toNat - '0'.toNat) =
      .ok (shorten (value p.coefficient (c :: ds)) (ds.length + 1), p.scale) := by
    rw [shorten_value hc hds, roundBy, if_pos hlt]
    split <;> rfl
  rw [readPlaces, digit?_of_isDigit hc]
  simp only [hp, if_true, finishBy, hround, checkDropped_of_isDigits hds]
  rfl

/-- Of more than 28 places the first 28 fit, and the next one decides. -/
theorem readPlaces_excess {p : Progress} {places : List Char} (hp : p.seenPoint = true)
    (hscale : p.scale = 0) (hplaces : IsDigits places)
    (hfit : value p.coefficient places ≤ maxCoefficient) (hlength : maxScale < places.length) :
    readPlaces p places =
      .ok (shorten (value p.coefficient places) (places.length - maxScale), maxScale) := by
  have hsplit := List.take_append_drop maxScale places
  have hlast : places.drop maxScale ≠ [] := by
    rw [ne_eq, List.drop_eq_nil_iff]
    omega
  obtain ⟨c, ds, hdrop⟩ := List.exists_cons_of_ne_nil hlast
  have hdropped : ds.length + 1 = places.length - maxScale := by
    rw [← List.length_drop, hdrop, List.length_cons]
  have hkept : (places.take maxScale).length = maxScale :=
    List.length_take_of_le (by omega)
  have hdigits := hplaces.drop maxScale
  rw [hdrop] at hsplit hdigits
  have hall : value (value p.coefficient (places.take maxScale)) (c :: ds) =
      value p.coefficient places := by
    rw [← value_append, hsplit]
  have hfront : value p.coefficient (places.take maxScale) < maxCoefficient := by
    have hle := le_value (value p.coefficient (places.take maxScale) * 10 +
      (c.toNat - '0'.toNat)) ds
    rw [← value_cons, hall] at hle
    rw [maxCoefficient] at hfit ⊢
    omega
  have hread := readPlaces_append (hplaces.take maxScale) (Nat.le_of_lt hfront)
    (fun _ ↦ by omega) (c :: ds)
  rw [hsplit] at hread
  have hfull : (p.pushAll (places.take maxScale)).isFull = true := by
    simp [Progress.isFull, hp, hkept]
  have hlt : (p.pushAll (places.take maxScale)).coefficient < maxCoefficient := by
    rwa [Progress.coefficient_pushAll]
  rw [hread, readPlaces_of_isFull hfull hdigits.head hdigits.tail hlt,
    Progress.coefficient_pushAll, hall, Progress.scale_pushAll, if_pos hp, hscale, hkept,
    hdropped, Nat.zero_add]

/-- Digits after the point are read as their value, rounded to 28 places. -/
theorem readPlaces_after_point {p : Progress} {places : List Char} (hp : p.seenPoint = true)
    (hdigit : p.seenDigit = true) (hscale : p.scale = 0) (hplaces : IsDigits places)
    (hfit : value p.coefficient places ≤ maxCoefficient) :
    readPlaces p places = .ok (rounded (value p.coefficient places) places.length) := by
  by_cases hlength : places.length ≤ maxScale
  · have happend := readPlaces_append hplaces hfit (fun _ ↦ by omega) []
    rw [List.append_nil] at happend
    rw [happend, rounded, if_pos hlength]
    simp [readPlaces, hp, hdigit, hscale]
  · rw [rounded, if_neg hlength]
    exact readPlaces_excess hp hscale hplaces hfit (Nat.lt_of_not_le hlength)

/-- Digits with a point among them are read as their value, rounded to 28 places. -/
theorem readPlaces_point {whole places : List Char} (hwhole : IsDigits whole)
    (hplaces : IsDigits places) (hne : whole ≠ [])
    (hfit : value 0 (whole ++ places) ≤ maxCoefficient) :
    readPlaces {} (whole ++ '.' :: places) =
      .ok (rounded (value 0 (whole ++ places)) places.length) := by
  rw [value_append] at hfit ⊢
  have hfront := Nat.le_trans (le_value (value 0 whole) places) hfit
  have hpoint : readPlaces {} (whole ++ '.' :: places) =
      readPlaces { ({} : Progress).pushAll whole with seenPoint := true } places := by
    rw [readPlaces_append (p := {}) hwhole hfront nofun, readPlaces]
    simp [Whole.digit?]
  rw [hpoint, readPlaces_after_point rfl]
  · simp
  · simp [hne]
  · simp
  · exact hplaces
  · simpa using hfit

/-! ### Sign and parts -/

/-- A number has given parts and, unless it is zero, a given sign. -/
structure HasParts (d : Decimal) (negative : Bool) (parts : Nat × Nat) : Prop where
  coefficient : d.coefficient = parts.1
  scale : d.scale = parts.2
  sign : parts.1 ≠ 0 → d.negative = negative

theorem ofParts?_eq_some {negative : Bool} {coefficient scale : Nat} {d : Decimal}
    (h : ofParts? negative coefficient scale = some d) :
    d.negative = negative ∧ d.coefficient = coefficient ∧ d.scale = scale := by
  rw [ofParts?] at h
  split at h
  · cases h
    exact ⟨rfl, rfl, rfl⟩
  · cases h

/-- Numbers of one sign are equal if their coefficients are, once both have the same scale. -/
theorem compare_of_hasParts {a b : Decimal} {negative : Bool} {c s c' s' : Nat}
    (ha : a.HasParts negative (c, s)) (hb : b.HasParts negative (c', s'))
    (h : c * tenTo s' = c' * tenTo s) : a.compare b = .eq := by
  have hcast : (c : Int) * tenTo s' = c' * tenTo s := by exact_mod_cast h
  have hsigned : a.signed * tenTo s' = b.signed * tenTo s := by
    rw [signed, signed, ha.coefficient, hb.coefficient]
    by_cases hc : c = 0
    · have hc' : c' = 0 := by
        rw [hc, Nat.zero_mul] at h
        exact (Nat.mul_eq_zero.mp h.symm).resolve_right (Nat.ne_of_gt (tenTo_pos s))
      simp [hc, hc']
    · have hc' : c' ≠ 0 := by
        rintro rfl
        rw [Nat.zero_mul] at h
        exact (Nat.mul_eq_zero.mp h).elim hc (Nat.ne_of_gt (tenTo_pos s'))
      rw [ha.sign hc, hb.sign hc']
      cases negative
      · exact hcast
      · simp only [if_true, Int.neg_mul, hcast]
  rw [compare, ha.scale, hb.scale, hsigned]
  exact Std.ReflCmp.compare_self

theorem hasParts_of_ofParts? {sign negative : Bool} {parts : Nat × Nat} {d : Decimal}
    (h : ofParts? sign parts.1 parts.2 = some d) (hsign : parts.1 ≠ 0 → sign = negative) :
    d.HasParts negative parts := by
  obtain ⟨hnegative, hcoefficient, hscale⟩ := ofParts?_eq_some h
  exact ⟨hcoefficient, hscale, fun hne ↦ hnegative.trans (hsign hne)⟩

theorem hasParts_of_assemble {negative : Bool} {parts : Nat × Nat} {d : Decimal}
    (h : assemble negative parts = .ok d) : d.HasParts negative parts := by
  rw [assemble] at h
  split at h
  · next hd =>
    cases h
    refine hasParts_of_ofParts? hd fun hne ↦ ?_
    rw [bne_iff_ne.mpr hne, Bool.and_true]
  · cases h

/-- Parts within bounds are those of a number of either sign. -/
theorem exists_assemble {c s : Nat} (hcoefficient : c ≤ maxCoefficient) (hscale : s ≤ maxScale)
    (negative : Bool) : ∃ d, assemble negative (c, s) = .ok d := by
  refine ⟨⟨negative && c != 0, c, s, hcoefficient, hscale⟩, ?_⟩
  rw [assemble, ofParts?, dif_pos ⟨hcoefficient, hscale⟩]

/-- The sign of a number, and its digits behind it. -/
theorem readPlain_sign {c : Char} (hc : c.isDigit = true) (negative : Bool) (cs : List Char) :
    readPlain ((if negative then ['-'] else []) ++ c :: cs) =
      readPlaces {} (c :: cs) >>= assemble negative := by
  cases negative
  · unfold readPlain
    split
    · next heq => cases heq
    · next heq =>
      obtain rfl : c = '-' := (List.cons.inj heq).1
      cases hc
    · next heq =>
      obtain rfl : c = '+' := (List.cons.inj heq).1
      cases hc
    · rfl
  · rfl

/-! ### Exponents -/

theorem shorten_zero (places : Nat) : shorten 0 places = 0 := by
  rw [shorten, Nat.zero_add]
  exact Nat.div_eq_of_lt (Nat.div_lt_self (tenTo_pos places) (by decide))

theorem rounded_zero (places : Nat) : (rounded 0 places).1 = 0 := by
  rw [rounded]
  split
  · rfl
  · exact shorten_zero _

theorem elim_eq_ok {x : Option Decimal} {fault : Fault} {d : Decimal}
    (h : x.elim (Except.error fault) Except.ok = .ok d) : x = some d := by
  cases x with
  | none => cases h
  | some d' => exact congrArg some (Except.ok.inj h)

/-- A negative exponent moves the point to the left, and excess places are rounded. -/
theorem hasParts_of_lower {base d : Decimal} {negative : Bool} {c s exponent : Nat}
    (hbase : base.HasParts negative (c, s)) (h : lower .round base exponent = .ok d) :
    d.HasParts negative (rounded c (s + exponent)) := by
  have hsign : (rounded c (s + exponent)).1 ≠ 0 → base.negative = negative := by
    intro hne
    refine hbase.sign fun hc ↦ hne ?_
    obtain rfl : c = 0 := hc
    exact rounded_zero _
  rw [lower, hbase.coefficient, hbase.scale] at h
  rw [rounded] at hsign ⊢
  dsimp only at h
  split at h
  · cases h
  split at h
  · next hle =>
    rw [if_pos hle] at hsign ⊢
    exact hasParts_of_ofParts? (elim_eq_ok h) hsign
  · next hlt =>
    rw [if_neg hlt] at hsign ⊢
    exact hasParts_of_ofParts? (elim_eq_ok h) hsign

/-- A positive exponent moves the point to the right, over zeros where the places run out. -/
theorem hasParts_of_raise {base d : Decimal} {negative : Bool} {c s exponent : Nat}
    (hbase : base.HasParts negative (c, s)) (h : raise base exponent = .ok d) :
    d.HasParts negative (c * tenTo (exponent - s), s - exponent) := by
  have hsign : c * tenTo (exponent - s) ≠ 0 → base.negative = negative := by
    intro hne
    exact hbase.sign fun hc ↦ hne (by rw [show c = 0 from hc, Nat.zero_mul])
  rw [raise, hbase.coefficient, hbase.scale] at h
  split at h
  · next hle =>
    rw [Nat.sub_eq_zero_of_le hle] at hsign ⊢
    have hone : c * tenTo 0 = c := Nat.mul_one c
    rw [hone] at hsign ⊢
    exact hasParts_of_ofParts? (elim_eq_ok h) hsign
  split at h
  · cases h
  · next hlt _ =>
    have hscale : s - exponent = 0 := by omega
    rw [hscale]
    exact hasParts_of_ofParts? (elim_eq_ok h) hsign

section Mark

variable {excess : Excess} {front : List Char} {mark : Char}
  (hfront : ∀ c ∈ front, isExponentMark c = false) (hmark : isExponentMark mark = true)

include hfront hmark

theorem takeWhile_mark (rest : List Char) :
    (front ++ mark :: rest).takeWhile (!isExponentMark ·) = front := by
  rw [List.takeWhile_append_of_pos (fun c hc ↦ by simp [hfront c hc])]
  simp [hmark]

theorem dropWhile_mark (rest : List Char) :
    (front ++ mark :: rest).dropWhile (!isExponentMark ·) = mark :: rest := by
  rw [List.dropWhile_append_of_pos (fun c hc ↦ by simp [hfront c hc])]
  simp [hmark]

/-- A number in front of a mark, and a negative exponent behind it. -/
theorem readScientific_minus (ds : List Char) :
    readScientific excess (front ++ mark :: '-' :: ds) =
      readPlain front >>= fun base ↦ readExponent ds >>= lower excess base := by
  simp only [readScientific, takeWhile_mark hfront hmark, dropWhile_mark hfront hmark]

/-- A number in front of a mark, and a positive exponent behind it. -/
theorem readScientific_plus (ds : List Char) :
    readScientific excess (front ++ mark :: '+' :: ds) =
      readPlain front >>= fun base ↦ readExponent ('+' :: ds) >>= raise base := by
  simp only [readScientific, takeWhile_mark hfront hmark, dropWhile_mark hfront hmark]
  rfl

end Mark

/-- The digits of a number, with or without a plus, are read as that exponent. -/
theorem eq_of_readExponent {cs : List Char} {n m : Nat}
    (hcs : cs = Whole.digits n ∨ cs = '+' :: Whole.digits n) (h : readExponent cs = .ok m) :
    m = n := by
  have hplus {ds : List Char} (hds : IsDigits ds) (rest : List Char) : ds ≠ '+' :: rest := by
    rintro rfl
    cases hds.head
  unfold readExponent at h
  split at h
  · next hread =>
    cases h
    obtain ⟨ds, hds, hdigits, rfl⟩ := Whole.exists_digits_of_readUnsigned hread
    rcases hcs with rfl | rfl <;> rcases hds with rfl | hds
    · exact Whole.value_digits n
    · exact absurd hds (hplus (Whole.isDigits_digits n) _)
    · exact absurd rfl (hplus hdigits _)
    · rw [← (List.cons.inj hds).2, Whole.value_digits]
  · cases h

end SamplingFrame.Decimal
