import SamplingFrame.Proofs.Text.Blank
import SamplingFrame.Proofs.Rule.Reading

/-!
# Payloads in one text

The items of a list and the ends of a range may be written in one text, with a separator between
them and with blanks around each. Such a text is read as the array of the items is, and where one of
them is refused, so is the other, for the same reason.
-/

namespace SamplingFrame

namespace Payload

/-- A text is an item with blanks added at its ends. The item can be told apart from these blanks
and from a separator. -/
structure PadsItem (separator : Char) (padded item : String) : Prop where
  isTrimmed : Text.IsTrimmed item.toList
  separator_not_mem : separator ∉ item.toList
  pads : Text.Pads padded.toList item.toList

variable {separator : Char} {text padded item : String} {paddeds items : List String}

/-! ### Parts -/

theorem PadsItem.trim (h : PadsItem separator padded item) :
    Text.trim padded.toList = item.toList :=
  Text.trim_of_pads h.pads h.isTrimmed

theorem PadsItem.not_mem (hblank : Text.isBlank separator = false)
    (h : PadsItem separator padded item) : separator ∉ padded.toList := by
  intro hmem
  refine h.separator_not_mem ?_
  rw [← h.trim]
  exact Text.mem_trim hblank hmem

/-- The parts of padded items in one text are the items. -/
theorem parts_of_padsItem (hblank : Text.isBlank separator = false)
    (h : List.Forall₂ (PadsItem separator) paddeds items) (hne : items ≠ [])
    (htext : text.toList = [separator].intercalate (paddeds.map String.toList)) :
    parts separator text = items.map .string := by
  have hsplit : text.toList.splitOn separator = paddeds.map String.toList := by
    rw [htext]
    refine List.splitOn_intercalate separator ?_ ?_
    · have hmem := h.imp fun padded item hpads ↦ And.intro (hpads.not_mem hblank) hpads
      exact List.forall_mem_map.mpr ((List.forall₂_and_left _ _).mp hmem).1
    · intro hnil
      rw [List.map_eq_nil_iff.mp hnil, List.forall₂_nil_left_iff] at h
      exact hne h
  rw [parts, hsplit, List.map_map]
  clear hne htext hsplit
  induction h with
  | nil => rfl
  | cons hpads _ ih =>
    rw [List.map_cons, List.map_cons, ih, Function.comp_apply, hpads.trim, String.ofList_toList]

/-- A blank text has no parts but one empty text. -/
theorem parts_of_isBlankText (hblank : Text.isBlank separator = false)
    (h : isBlankText text = true) : parts separator text = [.string ""] := by
  have htrim : Text.trim text.toList = [] := List.isEmpty_iff.mp h
  have hmem : separator ∉ text.toList := by
    intro hmem
    have := Text.mem_trim hblank hmem
    simp [htrim] at this
  rw [parts, List.splitOn_eq_singleton hmem, List.map_singleton, htrim]

/-- A text whose parts are items is not blank, unless there is one empty item alone. -/
theorem not_isBlankText_of_parts (hblank : Text.isBlank separator = false)
    (hparts : parts separator text = items.map .string) (hne : items ≠ [""]) :
    ¬isBlankText text := by
  intro h
  rw [parts_of_isBlankText hblank h] at hparts
  refine hne (List.map_injective_iff.mpr (fun a b hab ↦ ?_) hparts.symm)
  exact Json.string.inj hab

variable {field : Field} {operator : Operator}

/-! ### Lists -/

/-- A text is read as the list of its parts. -/
theorem readList_of_parts (hparts : parts listSeparator text = items.map .string)
    (hnil : items ≠ []) (hempty : items ≠ [""]) :
    readList field operator (.string text) =
      readList field operator (.array (items.map .string)) := by
  have htext : readList field operator (.string text) =
      do return .list (← readItems field operator (parts listSeparator text)) :=
    if_neg (not_isBlankText_of_parts (by decide) hparts hempty)
  obtain ⟨item, rest, rfl⟩ := List.exists_cons_of_ne_nil hnil
  rw [htext, hparts]
  rfl

/-! ### Ranges -/

/-- Two readings agree up to what is quoted: they give the same payload, or a fault of the same kind
for the same reason. -/
def Agree (field : Field) (operator : Operator) (x y : Except Fault Payload) : Prop :=
  (∃ payload, x = .ok payload ∧ y = .ok payload) ∨
    ∃ raw raw' reason, x = .error (.badPayload field operator raw reason) ∧
      y = .error (.badPayload field operator raw' reason)

variable (field operator) in
theorem readItem_cases (v : Json) :
    (∃ s, readItem field operator v = .ok s) ∨
      ∃ reason, readItem field operator v =
        .error (.badPayload field operator (rawText v) reason) := by
  unfold readItem
  cases readScalar field.type v with
  | ok s => exact .inl ⟨s, rfl⟩
  | error reason => exact .inr ⟨reason, rfl⟩

/-- What is quoted of a range does not matter otherwise. -/
theorem readEnds_agree (raw raw' low high : Json) :
    Agree field operator (readEnds field operator raw low high)
      (readEnds field operator raw' low high) := by
  unfold readEnds
  rcases readItem_cases field operator low with ⟨l, hl⟩ | ⟨reason, hl⟩
  · rcases readItem_cases field operator high with ⟨u, hu⟩ | ⟨reason, hu⟩
    · rw [hl, hu]
      by_cases hgt : l.compare? u = some .gt
      · exact .inr ⟨_, _, _, if_pos hgt, if_pos hgt⟩
      · exact .inl ⟨.range l u, if_neg hgt, if_neg hgt⟩
    · rw [hl, hu]
      exact .inr ⟨_, _, reason, rfl, rfl⟩
  · rw [hl]
    exact .inr ⟨_, _, reason, rfl, rfl⟩

/-- A text is read as the range of its two parts, up to what is quoted. -/
theorem readRange_of_parts {low high : String}
    (hparts : parts rangeSeparator text = [low, high].map .string) :
    Agree field operator (readRange field operator (.string text))
      (readRange field operator (.array [.string low, .string high])) := by
  have hfilled : ¬isBlankText text := not_isBlankText_of_parts (by decide) hparts (by simp)
  have htext : readRange field operator (.string text) =
      readEnds field operator (.string text) (.string low) (.string high) := by
    unfold readRange
    dsimp only
    rw [if_neg hfilled, hparts]
    rfl
  rw [htext]
  exact readEnds_agree _ _ _ _

/-! ### Texts and arrays -/

/-- A list operator reads padded items, joined by commas, exactly as it reads the array of the
items. A range operator reads two padded ends, joined by a long dash, as it reads the array of the
two, up to what is quoted in a fault. -/
theorem read_joined_text (field : Field) (operator : Operator) :
    (operator.shape = .list → ∀ paddeds items : List String,
      List.Forall₂ (PadsItem listSeparator) paddeds items → items ≠ [] → items ≠ [""] →
        read field operator (.string (",".intercalate paddeds)) =
          read field operator (.array (items.map .string))) ∧
    (operator.shape = .range → ∀ paddedLow paddedHigh low high : String,
      PadsItem rangeSeparator paddedLow low → PadsItem rangeSeparator paddedHigh high →
        Agree field operator (read field operator (.string (paddedLow ++ "—" ++ paddedHigh)))
          (read field operator (.array [.string low, .string high]))) := by
  constructor
  · intro hshape paddeds items hpads hnil hempty
    rw [read, read, hshape]
    refine readList_of_parts (parts_of_padsItem (by decide) hpads hnil ?_) hnil hempty
    exact String.toList_intercalate
  · intro hshape paddedLow paddedHigh low high hlow hhigh
    rw [read, read, hshape]
    refine readRange_of_parts (parts_of_padsItem (by decide) (.cons hlow (.cons hhigh .nil)) ?_ ?_)
    · simp
    · simp [List.intercalate, rangeSeparator]

/-- A list whose second item is no number, and a range whose ends are in the wrong order. -/
theorem read_joined_text_employees :
    List.Forall₂ (PadsItem listSeparator) [" 2", "x\t"] ["2", "x"] ∧
      read .employees .inList (.string " 2,x\t") =
        read .employees .inList (.array [.string "2", .string "x"]) ∧
      read .employees .inList (.string " 2,x\t") =
        .error (.badPayload .employees .inList "x" (.integerText .invalidDigit)) ∧
      Agree .employees .inRange (read .employees .inRange (.string " 2—1\t"))
        (read .employees .inRange (.array [.string "2", .string "1"])) := by
  have hitem {separator c : Char} (hblank : Text.isBlank c = false) (hne : separator ≠ c) :
      Text.IsTrimmed [c] ∧ separator ∉ [c] :=
    ⟨Text.IsSolid.isTrimmed (List.forall_mem_singleton.mpr hblank), by simpa using hne⟩
  have hspace : Text.IsBlank [' '] := List.forall_mem_singleton.mpr rfl
  have htab : Text.IsBlank ['\t'] := List.forall_mem_singleton.mpr rfl
  have htwo {separator : Char} (hne : separator ≠ '2') : PadsItem separator " 2" "2" :=
    ⟨(hitem rfl hne).1, (hitem rfl hne).2, [' '], [], hspace, nofun, rfl⟩
  have hone : PadsItem rangeSeparator "1\t" "1" :=
    have h := hitem rfl (by decide)
    ⟨h.1, h.2, [], ['\t'], nofun, htab, rfl⟩
  have hx : PadsItem listSeparator "x\t" "x" :=
    have h := hitem rfl (by decide)
    ⟨h.1, h.2, [], ['\t'], nofun, htab, rfl⟩
  have hitems : List.Forall₂ (PadsItem listSeparator) [" 2", "x\t"] ["2", "x"] :=
    .cons (htwo (by decide)) (.cons hx .nil)
  have hlist := (read_joined_text .employees .inList).1 rfl _ _ hitems (by decide) (by decide)
  have hrange := (read_joined_text .employees .inRange).2 rfl _ _ _ _ (htwo (by decide)) hone
  have hcommas : ",".intercalate [" 2", "x\t"] = " 2,x\t" := by decide +kernel
  have hdash : " 2" ++ "—" ++ "1\t" = " 2—1\t" := by decide +kernel
  rw [hcommas] at hlist
  rw [← hdash]
  exact ⟨hitems, hlist, by decide +kernel, hrange⟩

end Payload

end SamplingFrame
