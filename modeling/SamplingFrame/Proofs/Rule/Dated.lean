import SamplingFrame.Proofs.Calendar.Forms
import SamplingFrame.Proofs.Rule.Reading

/-!
# Timestamps in rules

A timestamp in a rule means the calendar date that is written in front of it. The offset does not
move it, even where the same moment falls on another day in universal time.
-/

namespace SamplingFrame

namespace Payload

/-- A text has the form of a date alone, or that of a timestamp, or neither. -/
theorem readTight?_or_readStrict? (cs : List Char) :
    Date.readTight? cs = none ∨ Timestamp.readStrict? cs = none := by
  cases h : Timestamp.readStrict? cs with
  | none => exact .inr rfl
  | some t => exact .inl (Date.readTight?_of_readStrict? h)

/-- The date is the same if timestamps are tried first. -/
theorem readDate?_eq_swap (cs : List Char) :
    readDate? cs = ((Timestamp.readStrict? cs).map (·.date)).or (Date.readTight? cs) := by
  rcases readTight?_or_readStrict? cs with h | h <;> simp [readDate?, h]

theorem readDate?_timestamp {d : Date} (hyear : 0 ≤ d.year ∧ d.year ≤ 9999) {time : List Char}
    (htime : Timestamp.WritesTime time) : readDate? (d.render ++ time) = some d := by
  obtain ⟨t, ht, rfl⟩ := Timestamp.exists_readStrict? hyear htime
  rw [readDate?_eq_swap, ht]
  rfl

theorem readDate?_render (d : Date) : readDate? d.render = some d := by
  rw [readDate?, Date.readTight?_render, Option.some_or]

/-- A date with blanks around it is read by every operator that takes a single value. -/
theorem read_of_readDate? {field : Field} {operator : Operator} {text : String} {cs : List Char}
    {d : Date} (htype : field.type = .date) (hshape : operator.shape = .scalar)
    (htext : Text.Pads text.toList cs) (hcs : Text.IsTrimmed cs) (h : readDate? cs = some d) :
    read field operator (.string text) = .ok (.scalar (.date d)) := by
  refine (read_eq_scalar_iff hshape).mpr ?_
  rw [htype, readScalar, readText, Text.trim_of_pads htext hcs]
  simp only [h]

/-- A timestamp of a date with a year of four digits is the payload that the date alone is, whatever
time, fraction and offset follow and whatever blanks stand around them. As no text has both of the
forms that are accepted, it does not matter which one is tried first. -/
theorem read_timestamp :
    (∀ d : Date, 0 ≤ d.year ∧ d.year ≤ 9999 → ∀ time, Timestamp.WritesTime time →
      ∀ field operator, field.type = .date → operator.shape = .scalar →
      ∀ stamp alone : String, Text.Pads stamp.toList (d.render ++ time) →
        Text.Pads alone.toList d.render →
        read field operator (.string stamp) = .ok (.scalar (.date d)) ∧
          read field operator (.string alone) = .ok (.scalar (.date d))) ∧
    ∀ cs, (Date.readTight? cs = none ∨ Timestamp.readStrict? cs = none) ∧
      readDate? cs = ((Timestamp.readStrict? cs).map (·.date)).or (Date.readTight? cs) := by
  constructor
  · intro d hyear time htime field operator htype hshape stamp alone hstamp halone
    constructor
    · exact read_of_readDate? htype hshape hstamp (Timestamp.isTrimmed_render_append d htime)
        (readDate?_timestamp hyear htime)
    · exact read_of_readDate? htype hshape halone (Date.isSolid_render d).isTrimmed
        (readDate?_render d)
  · intro cs
    exact ⟨readTight?_or_readStrict? cs, readDate?_eq_swap cs⟩

/-- The last day of a year, shortly before midnight. -/
def newYearsEve : Date := ⟨2024, 12, 31, by decide, by decide, by decide⟩

/-- A leap second that belongs to the next year in universal time. -/
theorem read_timestamp_newYearsEve :
    read .statusDate .greaterThan (.string "\t2024-12-31t23:59:60.0000000000000000000001-08:00 ") =
        .ok (.scalar (.date newYearsEve)) ∧
      read .statusDate .greaterThan (.string "2024-12-31") = .ok (.scalar (.date newYearsEve)) := by
  have htime : Timestamp.WritesTime "t23:59:60.0000000000000000000001-08:00".toList := by
    refine @Timestamp.WritesTime.time 't' 23 59 60 ".0000000000000000000001".toList
      "-08:00".toList (by decide) (by decide) (by decide) (by decide) ?_ ?_
    · exact @Timestamp.WritesFraction.places "0000000000000000000001".toList
        (List.all_eq_true.mp rfl) (by decide)
    · exact @Timestamp.WritesZone.offset '-' 8 0 (by decide) (by decide) (by decide)
  have hblank {blanks : List Char} (h : blanks.all Text.isBlank = true) : Text.IsBlank blanks :=
    List.all_eq_true.mp h
  refine read_timestamp.1 newYearsEve (by decide) _ htime .statusDate .greaterThan rfl rfl _ _ ?_ ?_
  · exact ⟨['\t'], [' '], hblank rfl, hblank rfl, by decide +kernel⟩
  · exact ⟨[], [], hblank rfl, hblank rfl, by decide +kernel⟩

end Payload

end SamplingFrame
