import SamplingFrame.Proofs.Calendar.Date
import SamplingFrame.Proofs.Number.Whole

/-!
# Dates read back

The text that shows a date is read as that date, also where its year has a sign because it is
negative or has more than four digits.
-/

namespace SamplingFrame

namespace Text

/-- All of the digits in front of a text are found, if they are no more than are wanted. -/
theorem scanDigits_append {width : Option Nat} {ds rest : List Char} (hds : IsDigits ds)
    (hne : ds ≠ []) (hwidth : ∀ w ∈ width, ds.length ≤ w)
    (hrest : ∀ c ∈ rest.head?, c.isDigit = false) :
    scanDigits width (ds ++ rest) = some (Whole.value 0 ds, rest) := by
  have hrun := hds.takeWhile_append hrest
  have hfilled : ds.isEmpty = false := by simpa using hne
  unfold scanDigits
  cases width with
  | none => simp [hrun, hfilled, Whole.value]
  | some w =>
    have htake : ds.take w = ds := List.take_of_length_le (hwidth w rfl)
    simp [hrun, htake, hfilled, Whole.value]

theorem trimStart_append_of_isSolid {cs : List Char} (h : IsSolid cs) (hne : cs ≠ [])
    (rest : List Char) : trimStart (cs ++ rest) = cs ++ rest := by
  have hcs := trimStart_of_head h.isTrimmed.1
  rw [trimStart_append (by rwa [hcs]), hcs]

end Text

namespace Date

open Text

/-! ### Padded numbers -/

theorem isDigits_padded (width n : Nat) : IsDigits (padded width n) := Whole.isDigits_leftpad _ _

theorem padded_ne_nil (width n : Nat) : padded width n ≠ [] := by
  have hlength : 0 < (padded width n).length := by
    rw [padded, List.length_leftpad]
    exact Nat.lt_of_lt_of_le (Whole.length_digits_pos n) (Nat.le_max_right _ _)
  exact List.length_pos_iff.mp hlength

/-- A number of at most as many digits fills its width. -/
theorem length_padded {width n : Nat} (hwidth : 0 < width) (h : n < Whole.tenTo width) :
    (padded width n).length = width := by
  rw [padded, List.length_leftpad]
  exact Nat.max_eq_left ((Whole.length_digits_le_iff hwidth).mpr h)

/-- A number that fills its width is found in front of a text that goes on without a digit. -/
theorem scanDigits_padded {width n : Nat} {rest : List Char} (hwidth : 0 < width)
    (h : n < Whole.tenTo width) (hrest : ∀ c ∈ rest.head?, c.isDigit = false) :
    scanDigits (some width) (trimStart (padded width n ++ rest)) = some (n, rest) := by
  have hdigits := isDigits_padded width n
  have hne := padded_ne_nil width n
  have hfit : ∀ w ∈ some width, (padded width n).length ≤ w := by
    intro w hw
    cases hw
    exact Nat.le_of_eq (length_padded hwidth h)
  rw [trimStart_append_of_isSolid hdigits.isSolid hne, scanDigits_append hdigits hne hfit hrest,
    padded, Whole.value_leftpad]

/-! ### Years -/

theorem isSolid_renderYear (year : Int) : IsSolid (renderYear year) := by
  have hsolid := (isDigits_padded 4 year.natAbs).isSolid
  unfold renderYear
  split
  · exact hsolid.cons (by decide)
  split
  · exact hsolid
  · exact hsolid.cons (by decide)

theorem renderYear_ne_nil (year : Int) : renderYear year ≠ [] := by
  unfold renderYear
  split
  · exact List.cons_ne_nil _ _
  split
  · exact padded_ne_nil _ _
  · exact List.cons_ne_nil _ _

/-- A year is found with or without a sign. -/
theorem scanYear_renderYear (year : Int) {rest : List Char}
    (hrest : ∀ c ∈ rest.head?, c.isDigit = false) :
    scanYear (renderYear year ++ rest) = some (year, rest) := by
  have hdigits := isDigits_padded 4 year.natAbs
  have hne := padded_ne_nil 4 year.natAbs
  have hscan {width : Option Nat} (hwidth : ∀ w ∈ width, (padded 4 year.natAbs).length ≤ w) :
      scanDigits width (padded 4 year.natAbs ++ rest) = some (year.natAbs, rest) := by
    rw [scanDigits_append hdigits hne hwidth hrest, padded, Whole.value_leftpad]
  unfold renderYear
  split
  · next hneg =>
    have habs : -(year.natAbs : Int) = year := by omega
    rw [List.cons_append, scanYear, hscan (by simp)]
    exact congrArg (fun n ↦ some (n, rest)) habs
  have habs : (year.natAbs : Int) = year := by omega
  split
  · next hpos hshort =>
    -- No more than four digits are looked at where there is no sign.
    have hlt : year.natAbs < Whole.tenTo 4 := by
      have hfour : Whole.tenTo 4 = 10000 := rfl
      omega
    have hfour : ∀ w ∈ some 4, (padded 4 year.natAbs).length ≤ w := by
      intro w hw
      cases hw
      exact Nat.le_of_eq (length_padded (by decide) hlt)
    have hread := hscan hfour
    obtain ⟨c, cs, hcs⟩ := List.exists_cons_of_ne_nil hne
    rw [hcs] at hdigits hread ⊢
    rw [List.cons_append, scanYear_of_isDigit hdigits.head, ← List.cons_append, hread]
    exact congrArg (fun n ↦ some (n, rest)) habs
  · rw [List.cons_append, scanYear, hscan (by simp)]
    exact congrArg (fun n ↦ some (n, rest)) habs

/-! ### Dates -/

theorem day_lt (d : Date) : d.day < Whole.tenTo 2 := by
  have hle : daysInMonth d.year d.month ≤ 31 := by
    unfold daysInMonth
    split_ifs <;> decide
  exact Nat.lt_of_le_of_lt (Nat.le_trans d.day_mem.2 hle) (by decide)

/-- A date is found in its text, with nothing after it. -/
theorem scanDashed_render (d : Date) : scanDashed .tight d.render = some (d, []) := by
  have hdash := isDigit_head_cons (c := '-') rfl
  have hmonth : d.month < Whole.tenTo 2 := Nat.lt_of_le_of_lt d.month_mem.2 (by decide)
  have hyearScan : scanYear (trimStart d.render) =
      some (d.year, '-' :: (padded 2 d.month ++ '-' :: padded 2 d.day)) := by
    rw [render, List.append_assoc,
      trimStart_append_of_isSolid (isSolid_renderYear _) (renderYear_ne_nil _)]
    exact scanYear_renderYear _ (hdash _)
  have hmonthScan := scanDigits_padded (by decide) hmonth (hdash (padded 2 d.day))
  have hdayScan : scanDigits (some 2) (trimStart (padded 2 d.day ++ [])) = some (d.day, []) :=
    scanDigits_padded (by decide) (day_lt d) nofun
  rw [List.append_nil] at hdayScan
  simp only [scanDashed, scanDash_tight, Option.bind_eq_bind, Option.bind_eq_some_iff, Prod.exists]
  exact ⟨d.year, _, hyearScan, (), _, rfl, d.month, _, hmonthScan, (), _, rfl, d.day, _, hdayScan,
    d, ofParts?_parts d, rfl⟩

/-- The text of a date is read as the date. -/
theorem readTight?_render (d : Date) : readTight? d.render = some d := by
  rw [readTight?, scanDashed_render]

theorem readLoose?_render (d : Date) : readLoose? d.render = some d := by
  rw [readLoose?, scanDashed_loose (scanDashed_render d)]
  rfl

theorem isSolid_render (d : Date) : IsSolid d.render := by
  have hdash (n : Nat) : IsSolid ('-' :: padded 2 n) :=
    (isDigits_padded 2 n).isSolid.cons (by decide)
  exact ((isSolid_renderYear d.year).append (hdash d.month)).append (hdash d.day)

end Date

end SamplingFrame
