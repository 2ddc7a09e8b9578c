import SamplingFrame.Proofs.Calendar.Written

/-!
# The two forms of a date

A rule takes a date alone, or a timestamp with a date in front. No text has both forms, so it does
not matter which one is tried first, and the digits of a number have neither.
-/

namespace SamplingFrame

open Text (IsDigits IsSolid scanChar scanDigits scanExact trimStart)

/-! ### Timestamps as they are written -/

namespace Timestamp

/-- A fraction of a second: none, or a point and at least one place. -/
inductive WritesFraction : List Char → Prop where
  | none : WritesFraction []
  | places {ds : List Char} (hds : IsDigits ds) (hne : ds ≠ []) : WritesFraction ('.' :: ds)

/-- An offset from universal time: its letter, or a sign with hours and minutes. -/
inductive WritesZone : List Char → Prop where
  | letter {c : Char} (hc : c = 'Z' ∨ c = 'z') : WritesZone [c]
  | offset {sign : Char} {hours minutes : Nat} (hsign : sign = '+' ∨ sign = '-' ∨ sign = '\u2212')
      (hhours : hours ≤ 23) (hminutes : minutes ≤ 59) :
      WritesZone (sign :: (Date.padded 2 hours ++ ':' :: Date.padded 2 minutes))

/-- A time of day and an offset that may follow a date. -/
inductive WritesTime : List Char → Prop where
  | time {separator : Char} {hour minute second : Nat} {fraction zone : List Char}
      (hseparator : separator = 'T' ∨ separator = 't' ∨ separator = ' ')
      (hhour : hour ≤ 23) (hminute : minute ≤ 59) (hsecond : second ≤ 60)
      (hfraction : WritesFraction fraction) (hzone : WritesZone zone) :
      WritesTime (separator :: (Date.padded 2 hour ++ ':' :: (Date.padded 2 minute ++
        ':' :: (Date.padded 2 second ++ (fraction ++ zone)))))

end Timestamp

namespace Text

/-- Digits of the exact width are found, whatever follows. -/
theorem scanExact_append {ds : List Char} (hds : IsDigits ds) (rest : List Char) :
    scanExact ds.length (ds ++ rest) = some (Whole.value 0 ds, rest) := by
  have hall : ds.all Char.isDigit = true := List.all_eq_true.mpr hds
  simp [scanExact, hall, Whole.value]

end Text

namespace Date

/-- A number that fills its width is found, whatever follows. -/
theorem scanExact_padded (width : Nat) {n : Nat} (hwidth : 0 < width) (h : n < Whole.tenTo width)
    (rest : List Char) : scanExact width (padded width n ++ rest) = some (n, rest) := by
  have hscan := Text.scanExact_append (isDigits_padded width n) rest
  rwa [length_padded hwidth h, padded, Whole.value_leftpad] at hscan

/-- A year of four digits has no sign. -/
theorem render_of_year {d : Date} (hyear : 0 ≤ d.year ∧ d.year ≤ 9999) :
    d.render = padded 4 d.year.natAbs ++ '-' :: (padded 2 d.month ++ '-' :: padded 2 d.day) := by
  rw [render, renderYear, if_neg (by omega), if_pos hyear.2, List.append_assoc, List.cons_append]

end Date

namespace Timestamp

open Date (padded scanExact_padded)

theorem exists_scanFraction {fraction zone : List Char} (hfraction : WritesFraction fraction)
    (hzone : WritesZone zone) : ∃ n, scanFraction (fraction ++ zone) = some (n, zone) := by
  cases hfraction with
  | none =>
    refine ⟨0, ?_⟩
    cases hzone with
    | letter hc => rcases hc with rfl | rfl <;> rfl
    | offset hsign => rcases hsign with rfl | rfl | rfl <;> rfl
  | @places ds hds hne =>
    have hend : ∀ c ∈ zone.head?, c.isDigit = false := by
      cases hzone with
      | letter hc => rcases hc with rfl | rfl <;> exact Text.isDigit_head_cons rfl _
      | offset hsign => rcases hsign with rfl | rfl | rfl <;> exact Text.isDigit_head_cons rfl _
    have hrun := hds.takeWhile_append hend
    have hfilled : ds.isEmpty = false := by simpa using hne
    simp [scanFraction, hrun, hfilled]

/-- An offset is read up to the end of the text. -/
theorem scanOffset_padded {sign : Char} (negative : Bool) {hours minutes : Nat}
    (hsign : ∀ cs, scanSign (sign :: cs) = some (negative, cs)) (hhours : hours ≤ 23)
    (hminutes : minutes ≤ 59) :
    scanOffset (scanChar ':') (sign :: (padded 2 hours ++ ':' :: padded 2 minutes)) =
      some (if negative then -(hours * 60 + minutes : Int) else hours * 60 + minutes, []) := by
  have hh := scanExact_padded 2 (by decide) (Nat.lt_of_le_of_lt hhours (by decide))
    (':' :: padded 2 minutes)
  have hm := scanExact_padded 2 (by decide) (Nat.lt_of_le_of_lt hminutes (by decide)) []
  rw [List.append_nil] at hm
  have hfit : (decide (minutes ≤ 59) && decide (hours ≤ 23)) = true := by
    simp [hhours, hminutes]
  refine Option.bind_eq_some_iff.mpr ⟨_, hsign _, ?_⟩
  refine Option.bind_eq_some_iff.mpr ⟨_, hh, ?_⟩
  refine Option.bind_eq_some_iff.mpr ⟨((), padded 2 minutes), rfl, ?_⟩
  refine Option.bind_eq_some_iff.mpr ⟨_, hm, ?_⟩
  exact Option.bind_eq_some_iff.mpr ⟨(), if_pos hfit, rfl⟩

theorem exists_scanZone {zone : List Char} (hzone : WritesZone zone) :
    ∃ offset, scanZone (scanChar ':') zone = some (offset, []) := by
  cases hzone with
  | letter hc => rcases hc with rfl | rfl <;> exact ⟨0, rfl⟩
  | offset hsign hhours hminutes =>
    rcases hsign with rfl | rfl | rfl
    · exact ⟨_, scanOffset_padded false (fun _ ↦ rfl) hhours hminutes⟩
    · exact ⟨_, scanOffset_padded true (fun _ ↦ rfl) hhours hminutes⟩
    · exact ⟨_, scanOffset_padded true (fun _ ↦ rfl) hhours hminutes⟩

theorem scanSeparator_cons {separator : Char}
    (h : separator = 'T' ∨ separator = 't' ∨ separator = ' ') (cs : List Char) :
    scanSeparator (separator :: cs) = some ((), cs) := by
  rcases h with rfl | rfl | rfl <;> rfl

theorem WritesZone.ne_nil {zone : List Char} (hzone : WritesZone zone) : zone ≠ [] := by
  cases hzone <;> exact List.cons_ne_nil _ _

theorem WritesZone.isSolid {zone : List Char} (hzone : WritesZone zone) : IsSolid zone := by
  cases hzone with
  | letter hc => rcases hc with rfl | rfl <;> exact IsSolid.cons (by decide) nofun
  | @offset sign hours minutes hsign =>
    have hminutes : IsSolid (':' :: padded 2 minutes) :=
      (Date.isDigits_padded 2 minutes).isSolid.cons (by decide)
    have hoffset := (Date.isDigits_padded 2 hours).isSolid.append hminutes
    rcases hsign with rfl | rfl | rfl <;> exact hoffset.cons (by decide)

/-- A timestamp has no blanks at its ends, though there may be one before the time of day. -/
theorem isTrimmed_render_append (d : Date) {time : List Char} (htime : WritesTime time) :
    Text.IsTrimmed (d.render ++ time) := by
  cases htime with
  | @time separator hour minute second fraction zone _ _ _ _ _ hzone =>
    have hrender : d.render ≠ [] := by simp [Date.render]
    constructor
    · intro c hc
      rw [List.head?_append, Option.or_of_isSome (by simp [hrender])] at hc
      exact (Date.isSolid_render d).isTrimmed.1 c hc
    · have hassoc : d.render ++ separator :: (padded 2 hour ++ ':' :: (padded 2 minute ++
          ':' :: (padded 2 second ++ (fraction ++ zone)))) =
          (d.render ++ separator :: (padded 2 hour ++ ':' :: (padded 2 minute ++
            ':' :: (padded 2 second ++ fraction)))) ++ zone := by simp
      rw [hassoc]
      intro c hc
      rw [List.getLast?_append, Option.or_of_isSome (by simp [hzone.ne_nil])] at hc
      exact hzone.isSolid.isTrimmed.2 c hc

/-- A timestamp of a date with a year of four digits is read with the date that it begins with. -/
theorem exists_readStrict? {d : Date} (hyear : 0 ≤ d.year ∧ d.year ≤ 9999) {time : List Char}
    (htime : WritesTime time) : ∃ t, readStrict? (d.render ++ time) = some t ∧ t.date = d := by
  cases htime with
  | @time separator hour minute second fraction zone hseparator hhour hminute hsecond hfraction
      hzone =>
    obtain ⟨nanosecond, hnanosecond⟩ := exists_scanFraction hfraction hzone
    obtain ⟨offset, hoffset⟩ := exists_scanZone hzone
    have hyearScan := scanExact_padded 4 (n := d.year.natAbs) (by decide)
      (Nat.lt_of_le_of_lt (m := 9999) (by omega) (by decide))
    have htwo {n m : Nat} (hn : n ≤ m) (hm : m < Whole.tenTo 2) :=
      scanExact_padded 2 (by decide) (Nat.lt_of_le_of_lt hn hm)
    have hmonthScan := htwo d.month_mem.2 (by decide)
    have hdayScan := scanExact_padded 2 (by decide) (Date.day_lt d)
    have hhourScan := htwo hhour (by decide)
    have hminuteScan := htwo hminute (by decide)
    have hsecondScan := htwo hsecond (by decide)
    have hchar (c : Char) (cs : List Char) : scanChar c (c :: cs) = some ((), cs) := if_pos rfl
    have hvalid : (isTime hour minute second && List.isEmpty ([] : List Char)) = true := by
      simp [isTime, hhour, hminute, hsecond]
    have hdate : Date.ofParts? d.year.natAbs d.month d.day = some d := by
      rw [Int.natAbs_of_nonneg hyear.1]
      exact Date.ofParts?_parts d
    rw [Date.render_of_year hyear]
    simp only [List.append_assoc, List.cons_append]
    refine ⟨⟨d, ⟨hour, minute, second, nanosecond⟩, offset⟩, ?_, rfl⟩
    -- The parts are found one after the other, each in front of what is left of the text.
    refine Option.bind_eq_some_iff.mpr ⟨_, hyearScan _, ?_⟩
    refine Option.bind_eq_some_iff.mpr ⟨_, hchar '-' _, ?_⟩
    refine Option.bind_eq_some_iff.mpr ⟨_, hmonthScan _, ?_⟩
    refine Option.bind_eq_some_iff.mpr ⟨_, hchar '-' _, ?_⟩
    refine Option.bind_eq_some_iff.mpr ⟨_, hdayScan _, ?_⟩
    refine Option.bind_eq_some_iff.mpr ⟨_, scanSeparator_cons hseparator _, ?_⟩
    refine Option.bind_eq_some_iff.mpr ⟨_, hhourScan _, ?_⟩
    refine Option.bind_eq_some_iff.mpr ⟨_, hchar ':' _, ?_⟩
    refine Option.bind_eq_some_iff.mpr ⟨_, hminuteScan _, ?_⟩
    refine Option.bind_eq_some_iff.mpr ⟨_, hchar ':' _, ?_⟩
    refine Option.bind_eq_some_iff.mpr ⟨_, hsecondScan _, ?_⟩
    refine Option.bind_eq_some_iff.mpr ⟨_, hnanosecond, ?_⟩
    refine Option.bind_eq_some_iff.mpr ⟨_, hoffset, ?_⟩
    exact Option.bind_eq_some_iff.mpr ⟨(), if_pos hvalid,
      Option.bind_eq_some_iff.mpr ⟨d, hdate, rfl⟩⟩

end Timestamp

/-! ### Texts of one form or none -/

namespace Date

/-- A text with the form of a timestamp does not have that of a date alone. -/
theorem readTight?_of_readStrict? {cs : List Char} {t : Timestamp}
    (h : Timestamp.readStrict? cs = some t) : readTight? cs = none := by
  obtain ⟨rest, hne, hscan⟩ := scanDashed_tight_of_readStrict? h
  rw [readTight?, hscan]
  cases rest with
  | nil => exact absurd rfl hne
  | cons c rest => rfl

/-- At least one character belongs to the digits that are found. -/
theorem exists_drop_of_scanDigits {width : Option Nat} {cs rest : List Char} {n : Nat}
    (h : scanDigits width cs = some (n, rest)) : ∃ k, rest = cs.drop (k + 1) := by
  obtain ⟨run, hrun⟩ : ∃ run, scanDigits width cs =
      if run.isEmpty then none else some (Nat.ofDigitChars 10 run 0, cs.drop run.length) := ⟨_, rfl⟩
  rw [hrun] at h
  split at h
  · cases h
  · next hne =>
    cases h
    rw [List.isEmpty_iff, ← List.length_eq_zero_iff] at hne
    obtain ⟨k, hk⟩ := Nat.exists_eq_add_one_of_ne_zero hne
    exact ⟨k, by rw [hk]⟩

theorem exists_drop_of_scanYear {cs rest : List Char} {year : Int}
    (h : scanYear cs = some (year, rest)) : ∃ k, rest = cs.drop (k + 1) := by
  unfold scanYear at h
  split at h <;> obtain ⟨⟨n, rest'⟩, hn, heq⟩ := Option.map_eq_some_iff.mp h <;> cases heq
  · obtain ⟨k, rfl⟩ := exists_drop_of_scanDigits hn
    exact ⟨k + 1, rfl⟩
  · obtain ⟨k, rfl⟩ := exists_drop_of_scanDigits hn
    exact ⟨k + 1, rfl⟩
  · exact exists_drop_of_scanDigits hn

/-- Where digits alone follow the first character there is no dash after the year. -/
theorem scanDashed_of_isDigits_tail {cs : List Char} (hsolid : IsSolid cs)
    (htail : IsDigits cs.tail) : scanDashed .loose cs = none := by
  rw [← Option.not_isSome_iff_eq_none, Option.isSome_iff_exists]
  rintro ⟨⟨d, rest⟩, h⟩
  simp only [scanDashed, Option.bind_eq_bind, Option.bind_eq_some_iff, Prod.exists] at h
  obtain ⟨year, cs₁, hyear, _, cs₂, hdash, -⟩ := h
  rw [Text.trimStart_of_head hsolid.isTrimmed.1] at hyear
  obtain ⟨k, rfl⟩ := exists_drop_of_scanYear hyear
  have hrest : IsDigits (cs.drop (k + 1)) := by
    rw [← List.drop_tail]
    exact htail.drop k
  rw [scanDash, if_pos rfl, Text.trimStart_of_head hrest.isSolid.isTrimmed.1] at hdash
  cases hcs : cs.drop (k + 1) with
  | nil =>
    rw [hcs] at hdash
    cases hdash
  | cons c ds =>
    rw [hcs] at hdash hrest
    have hc : c ≠ '-' := by
      rintro rfl
      cases hrest.head
    rw [scanChar, if_neg hc] at hdash
    cases hdash

/-- The digits of a number have neither form. -/
theorem readTight?_of_isDigits_tail {cs : List Char} (hsolid : IsSolid cs)
    (htail : IsDigits cs.tail) : readTight? cs = none ∧ Timestamp.readStrict? cs = none := by
  have hnone := scanDashed_of_isDigits_tail hsolid htail
  constructor
  · cases hscan : scanDashed .tight cs with
    | none => rw [readTight?, hscan]
    | some found =>
      rw [scanDashed_loose hscan] at hnone
      cases hnone
  · cases hread : Timestamp.readStrict? cs with
    | none => rfl
    | some t =>
      obtain ⟨rest, hscan⟩ := scanDashed_of_readStrict? hread
      rw [hscan] at hnone
      cases hnone

end Date

end SamplingFrame
