import SamplingFrame.Proofs.Number.Decimal.Places

/-!
# Numbers read back

The text that shows a number is read as that number. Of a decimal number the digits and their places
are read back, and only the sign of a zero may get lost.
-/

namespace SamplingFrame

open Text (IsDigits IsSolid)

/-! ### Whole numbers -/

namespace Whole

theorem readMagnitude_digits {limit n : Nat} {excess : Fault} (h : n ≤ limit) :
    readMagnitude limit excess (digits n) = .ok n :=
  readMagnitude_eq_ok_iff.mpr ⟨digits_ne_nil n, isDigits_digits n, value_digits n, h⟩

/-- Digits without a sign are a number that is not negative. -/
theorem readSigned_of_isDigits {cs : List Char} (hcs : IsDigits cs) (hne : cs ≠ []) :
    readSigned cs = (readMagnitude maxSigned .tooLarge cs).map fun n ↦ Int64.ofInt n := by
  unfold readSigned
  split
  · exact absurd rfl hne
  · cases hcs.head
  · cases hcs.head
  · rfl

/-- The text of a number is read as the number, up to both ends of its range. -/
theorem readSigned_render (n : Int64) : readSigned (render n.toInt) = .ok n := by
  have hlow := n.le_toInt
  have hhigh := n.toInt_lt
  unfold render
  split
  · next hneg =>
    -- The least number has no positive counterpart, so its digits are read up to a higher limit.
    have hfit : n.toInt.natAbs ≤ maxSigned + 1 := by
      rw [maxSigned]
      omega
    have habs : -(n.toInt.natAbs : Int) = n.toInt := by omega
    rw [readSigned, readMagnitude_digits hfit]
    exact congrArg Except.ok ((congrArg Int64.ofInt habs).trans n.ofInt_toInt)
  · next hpos =>
    have hfit : n.toInt.natAbs ≤ maxSigned := by
      rw [maxSigned]
      omega
    have habs : (n.toInt.natAbs : Int) = n.toInt := by omega
    rw [readSigned_of_isDigits (isDigits_digits _) (digits_ne_nil _), readMagnitude_digits hfit]
    exact congrArg Except.ok ((congrArg Int64.ofInt habs).trans n.ofInt_toInt)

/-- Only a number that is within the limit is read back. -/
theorem readMagnitude_digits_eq_ok_iff {limit m n : Nat} {excess : Fault} :
    readMagnitude limit excess (digits m) = .ok n ↔ m ≤ limit ∧ n = m := by
  rw [readMagnitude_eq_ok_iff, value_digits]
  constructor
  · rintro ⟨-, -, rfl, hle⟩
    exact ⟨hle, rfl⟩
  · rintro ⟨hle, rfl⟩
    exact ⟨digits_ne_nil n, isDigits_digits n, rfl, hle⟩

/-- The text of a number is read as a word of 64 bits exactly if the number is one. -/
theorem readSigned_render_eq_ok_iff {n : Int} {i : Int64} :
    readSigned (render n) = .ok i ↔ i.toInt = n := by
  constructor
  · intro h
    unfold render at h
    split at h
    · next hneg =>
      rw [readSigned] at h
      cases hread : readMagnitude (maxSigned + 1) .tooSmall (digits n.natAbs) with
      | error fault =>
        rw [hread] at h
        cases h
      | ok k =>
        obtain ⟨hle, rfl⟩ := readMagnitude_digits_eq_ok_iff.mp hread
        rw [hread] at h
        obtain rfl := Except.ok.inj h
        rw [maxSigned] at hle
        rw [Int64.toInt_ofInt_of_le (by omega) (by omega)]
        omega
    · next hpos =>
      rw [readSigned_of_isDigits (isDigits_digits _) (digits_ne_nil _)] at h
      cases hread : readMagnitude maxSigned .tooLarge (digits n.natAbs) with
      | error fault =>
        rw [hread] at h
        cases h
      | ok k =>
        obtain ⟨hle, rfl⟩ := readMagnitude_digits_eq_ok_iff.mp hread
        rw [hread] at h
        obtain rfl := Except.ok.inj h
        rw [maxSigned] at hle
        rw [Int64.toInt_ofInt_of_le (by omega) (by omega)]
        omega
  · rintro rfl
    exact readSigned_render i

/-- Different numbers have different texts. -/
theorem render_injective : Function.Injective render := by
  intro m n h
  -- A minus is no digit, so either both numbers are negative or neither is.
  have hminus {k : Nat} {cs : List Char} (h : '-' :: cs = digits k) : False := by
    have hdigit := isDigits_digits k
    rw [← h] at hdigit
    cases hdigit.head
  unfold render at h
  split at h <;> split at h
  · have habs := digits_injective (List.cons.inj h).2
    omega
  · exact (hminus h).elim
  · exact (hminus h.symm).elim
  · have habs := digits_injective h
    omega

theorem render_ne_nil (n : Int) : render n ≠ [] := by
  unfold render
  split
  · exact List.cons_ne_nil _ _
  · exact digits_ne_nil _

/-- Only the first character of a number can be something else than a digit. -/
theorem isDigits_tail_render (n : Int) : IsDigits (render n).tail := by
  unfold render
  split
  · exact isDigits_digits _
  · exact fun c hc ↦ isDigits_digits _ c (List.mem_of_mem_tail hc)

theorem map_toLower_render (n : Int) : (render n).map Char.toLower = render n := by
  have hdigits := (isDigits_digits n.natAbs).map_toLower
  unfold render
  split
  · rw [List.map_cons, hdigits]
    rfl
  · exact hdigits

theorem isSolid_render (n : Int) : IsSolid (render n) := by
  unfold render
  split
  · exact (isDigits_digits _).isSolid.cons (by decide)
  · exact (isDigits_digits _).isSolid

end Whole

/-! ### Decimal numbers -/

namespace Decimal

/-- The digits of a number stand before the point and in its places, and there is one before the
point even if the number is too small for it. -/
theorem exists_render_eq (d : Decimal) :
    ∃ whole places, IsDigits whole ∧ IsDigits places ∧ whole ≠ [] ∧ places.length = d.scale ∧
      Whole.value 0 (whole ++ places) = d.coefficient ∧
      d.render = (if d.negative then ['-'] else []) ++
        (whole ++ if d.scale = 0 then [] else '.' :: places) := by
  have hds := Whole.isDigits_leftpad (d.scale + 1) d.coefficient
  have hvalue := Whole.value_leftpad (d.scale + 1) d.coefficient
  have hlength : d.scale + 1 ≤ ((Whole.digits d.coefficient).leftpad (d.scale + 1) '0').length := by
    rw [List.length_leftpad]
    exact Nat.le_max_left _ _
  unfold render
  generalize (Whole.digits d.coefficient).leftpad (d.scale + 1) '0' = ds at hds hvalue hlength ⊢
  refine ⟨ds.take (ds.length - d.scale), ds.drop (ds.length - d.scale), hds.take _, hds.drop _,
    ?_, ?_, ?_, List.append_assoc _ _ _⟩
  · rw [← List.length_pos_iff, List.length_take]
    omega
  · rw [List.length_drop]
    omega
  · rwa [List.take_append_drop]

/-- The digits of a number are read with their places. -/
theorem readPlaces_of_places {d : Decimal} {whole places : List Char} (hwhole : IsDigits whole)
    (hplaces : IsDigits places) (hne : whole ≠ []) (hscale : places.length = d.scale)
    (hvalue : Whole.value 0 (whole ++ places) = d.coefficient) :
    readPlaces {} (whole ++ if d.scale = 0 then [] else '.' :: places) =
      .ok (d.coefficient, d.scale) := by
  by_cases hzero : d.scale = 0
  · obtain rfl := List.eq_nil_of_length_eq_zero (hscale.trans hzero)
    rw [List.append_nil] at hvalue
    rw [if_pos hzero, List.append_nil, readPlaces_whole_eq_ok_iff hwhole hne, hvalue, hzero]
    exact ⟨d.coefficient_le, rfl⟩
  · have hfit : Whole.value 0 (whole ++ places) ≤ maxCoefficient := by
      rw [hvalue]
      exact d.coefficient_le
    have hrounded : rounded d.coefficient d.scale = (d.coefficient, d.scale) := if_pos d.scale_le
    rw [if_neg hzero, readPlaces_point hwhole hplaces hne hfit, hvalue, hscale, hrounded]

/-! ### Zeros with a sign -/

/-- A zero with a minus in front. -/
def IsSignedZero (d : Decimal) : Prop := d.negative = true ∧ d.coefficient = 0

instance (d : Decimal) : Decidable d.IsSignedZero := inferInstanceAs (Decidable (_ ∧ _))

theorem zero_le_maxCoefficient : 0 ≤ maxCoefficient := Nat.zero_le _

/-- The zero with a minus in front and a number of places. -/
def minusZero (scale : Nat) (h : scale ≤ maxScale) : Decimal :=
  ⟨true, 0, scale, zero_le_maxCoefficient, h⟩

/-- The number that the text of a number is read as: a zero loses its sign. -/
def reread (d : Decimal) : Decimal := { d with negative := d.negative && d.coefficient != 0 }

theorem reread_eq_self {d : Decimal} (h : ¬ d.IsSignedZero) : d.reread = d := by
  have hsign : (d.negative && d.coefficient != 0) = d.negative := by
    cases hnegative : d.negative with
    | false => rfl
    | true => simpa using fun hzero ↦ h ⟨hnegative, hzero⟩
  rw [reread, hsign]

/-- The value stays the same, and with it the order. -/
theorem compare_reread (d e : Decimal) : d.reread.compare e = d.compare e := by
  have hsigned : d.reread.signed = d.signed := by
    by_cases hzero : d.coefficient = 0 <;> simp [signed, reread, hzero]
  rw [compare, compare, hsigned, reread]

/-- A zero shows its sign, though it is read without. -/
theorem render_of_isSignedZero {d : Decimal} (h : d.IsSignedZero) :
    d.render = '-' :: d.reread.render := by
  obtain ⟨hnegative, hzero⟩ := h
  simp [render, reread, hnegative, hzero]

/-- The text of a number is read as the number, but for the sign of a zero. -/
theorem readAny_render (d : Decimal) : readAny d.render = .ok d.reread := by
  obtain ⟨whole, places, hwhole, hplaces, hne, hscale, hvalue, hrender⟩ := exists_render_eq d
  have hread := readPlaces_of_places hwhole hplaces hne hscale hvalue
  obtain ⟨c, whole, rfl⟩ := List.exists_cons_of_ne_nil hne
  refine readAny_eq_ok_iff.mpr (.inl ?_)
  rw [hrender, List.cons_append, readPlain_sign hwhole.head, ← List.cons_append, hread]
  show assemble _ _ = _
  rw [assemble, ofParts?, dif_pos ⟨d.coefficient_le, d.scale_le⟩, reread]

/-! ### Whole numbers as decimal numbers -/

/-- A number without places is shown as a whole number. -/
theorem render_whole {n : Int} (h : n.natAbs ≤ maxCoefficient) :
    render ⟨decide (n < 0), n.natAbs, 0, h, by decide⟩ = Whole.render n := by
  have hpad : 1 - (Whole.digits n.natAbs).length = 0 :=
    Nat.sub_eq_zero_of_le (Whole.length_digits_pos n.natAbs)
  by_cases hneg : n < 0 <;> simp [render, Whole.render, hpad, hneg]

/-- A whole number with its sign in front is read as it is. -/
theorem readAny_render_whole {n : Int} (h : n.natAbs ≤ maxCoefficient) :
    readAny (Whole.render n) = .ok ⟨decide (n < 0), n.natAbs, 0, h, by decide⟩ := by
  rw [← render_whole h, readAny_render, reread_eq_self]
  rintro ⟨hneg, hzero⟩
  have hlt : n < 0 := of_decide_eq_true hneg
  rw [Int.natAbs_eq_zero.mp hzero] at hlt
  cases hlt

end Decimal

end SamplingFrame
