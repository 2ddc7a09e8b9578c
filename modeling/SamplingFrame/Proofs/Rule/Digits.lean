import Mathlib.Data.List.Forall2
import SamplingFrame.Proofs.Calendar.Forms
import SamplingFrame.Proofs.Rule.Shown

/-!
# Whole numbers as text

A whole number in a rule may be stored as a number or as the text of its digits. Both mean the same
for every type of field, also among the items of a list and at the ends of a range.
-/

namespace SamplingFrame

/-- A stored value, and the same one or the text of its digits if it is a whole number. -/
inductive Json.SpellsOut : Json → Json → Prop where
  | same (v : Json) : SpellsOut v v
  | digits {n : Int} (hn : Whole.IsWord n) :
      SpellsOut (.number (.integer n)) (.string (String.ofList (Whole.render n)))

theorem Whole.IsWord.natAbs_le {n : Int} (hn : IsWord n) : n.natAbs ≤ Decimal.maxCoefficient := by
  unfold IsWord at hn
  unfold Decimal.maxCoefficient
  omega

namespace FieldType

/-- What a whole number means as a value of a type. -/
def Counts (n : Int) : FieldType → Scalar → Prop
  | .string, s | .code, s => s = .text (String.ofList (Whole.render n))
  | .integer, s => ∃ i : Int64, i.toInt = n ∧ s = .integer i
  | .decimal, s => ∃ d : Decimal,
      (d.negative = decide (n < 0) ∧ d.coefficient = n.natAbs ∧ d.scale = 0) ∧ s = .decimal d
  | .boolean, s => n = 0 ∧ s = .boolean false ∨ n = 1 ∧ s = .boolean true
  | .date, _ => False

/-- Whether a whole number means anything as a value of a type. -/
def Takes (n : Int) : FieldType → Prop
  | .string | .code | .decimal => True
  | .integer => n ≤ 9223372036854775807
  | .boolean => n = 0 ∨ n = 1
  | .date => False

variable {type : FieldType} {n : Int}

theorem exists_counts_iff (hn : Whole.IsWord n) : (∃ s, type.Counts n s) ↔ type.Takes n := by
  cases type with
  | string | code | boolean | date => simp [Counts, Takes, exists_or]
  | integer =>
    constructor
    · rintro ⟨_, i, rfl, -⟩
      have hlt := i.toInt_lt
      show i.toInt ≤ 9223372036854775807
      omega
    · intro hle
      have hlt : n < 2 ^ 63 := Int.lt_add_one_of_le hle
      exact ⟨_, Int64.ofInt n, Int64.toInt_ofInt_of_le hn.1 hlt, rfl⟩
  | decimal =>
    let d : Decimal := ⟨decide (n < 0), n.natAbs, 0, hn.natAbs_le, by decide⟩
    exact iff_of_true ⟨.decimal d, d, ⟨rfl, rfl, rfl⟩, rfl⟩ trivial

end FieldType

namespace Payload

variable {field : Field} {operator : Operator} {type : FieldType} {n : Int} {s : Scalar}

/-! ### The digits as text -/

/-- The only truth values among the whole numbers are zero and one. -/
theorem readFlag?_render_iff {b : Bool} :
    readFlag? (Whole.render n) = some b ↔ n = 0 ∧ b = false ∨ n = 1 ∧ b = true := by
  constructor
  · intro h
    have htail := Whole.isDigits_tail_render n
    have hchars {text : String} (heq : String.ofList (Whole.render n) = text) :
        Whole.render n = text.toList := by
      rw [← heq, String.toList_ofList]
    unfold readFlag? at h
    rw [Whole.map_toLower_render] at h
    split at h <;> cases h
    · next heq =>
      rw [hchars heq] at htail
      cases htail.head
    · next heq => exact .inr ⟨Whole.render_injective (hchars heq), rfl⟩
    · next heq =>
      rw [hchars heq] at htail
      cases htail.head
    · next heq => exact .inl ⟨Whole.render_injective (hchars heq), rfl⟩
  · rintro (⟨rfl, rfl⟩ | ⟨rfl, rfl⟩) <;> decide

/-- The text of a number means what the number does. -/
theorem readText_render_iff (type : FieldType) (hn : Whole.IsWord n) :
    readText type (String.ofList (Whole.render n)) = .ok s ↔ type.Counts n s := by
  have hsolid := Whole.isSolid_render n
  have htrim := trim_toList_ofList hsolid
  cases type with
  | string =>
    rw [readText, Except.ok.injEq]
    exact eq_comm
  | code =>
    rw [readText_code, Except.ok.injEq]
    · exact eq_comm
    · exact fun hnil ↦ Whole.render_ne_nil n (String.ofList_eq_empty_iff.mp hnil)
    · rw [String.toList_ofList]
      exact hsolid.isTrimmed
  | integer =>
    simp only [readText, htrim, FieldType.Counts, ← Whole.readSigned_render_eq_ok_iff]
    cases Whole.readSigned (Whole.render n) <;> simp [eq_comm]
  | decimal =>
    simp only [readText, htrim, FieldType.Counts, Decimal.readAny_render_whole hn.natAbs_le,
      Except.ok.injEq]
    constructor
    · rintro rfl
      exact ⟨_, ⟨rfl, rfl, rfl⟩, rfl⟩
    · rintro ⟨d, ⟨hnegative, hcoefficient, hscale⟩, rfl⟩
      cases d
      subst hnegative hcoefficient hscale
      rfl
  | date =>
    obtain ⟨htight, hstrict⟩ :=
      Date.readTight?_of_isDigits_tail hsolid (Whole.isDigits_tail_render n)
    have hread : readDate? (Whole.render n) = none := by
      rw [readDate?, htight, hstrict]
      rfl
    simp only [readText, htrim, hread, FieldType.Counts, reduceCtorEq]
  | boolean =>
    simp only [readText, htrim, FieldType.Counts]
    constructor
    · intro h
      split at h <;> cases h
      next hread =>
      rcases readFlag?_render_iff.mp hread with ⟨hzero, rfl⟩ | ⟨hone, rfl⟩
      · exact .inl ⟨hzero, rfl⟩
      · exact .inr ⟨hone, rfl⟩
    · rintro (⟨hzero, rfl⟩ | ⟨hone, rfl⟩)
      · rw [readFlag?_render_iff.mpr (.inl ⟨hzero, rfl⟩)]
      · rw [readFlag?_render_iff.mpr (.inr ⟨hone, rfl⟩)]

/-! ### The number itself -/

/-- A number means the same as the text of its digits. -/
theorem readNumber_iff (hn : Whole.IsWord n) :
    readNumber type (.integer n) = .ok s ↔ type.Counts n s := by
  cases type with
  | string => exact readText_render_iff .string hn
  | code => exact readText_render_iff .code hn
  | decimal => exact readText_render_iff .decimal hn
  | integer =>
    simp only [readNumber, Json.Number.signed?, FieldType.Counts]
    constructor
    · intro h
      split at h <;> cases h
      next i hi =>
      split at hi <;> cases hi
      next hfit =>
      exact ⟨_, Int64.toInt_ofInt_of_le hfit.1 (Int.lt_add_one_of_le hfit.2), rfl⟩
    · rintro ⟨i, rfl, rfl⟩
      have hlt := i.toInt_lt
      rw [if_pos ⟨i.le_toInt, by omega⟩, Int64.ofInt_toInt]
  | date => simp [readNumber, FieldType.Counts]
  | boolean =>
    simp only [readNumber, FieldType.Counts]
    constructor
    · intro h
      split at h <;> cases h
      · next heq => exact .inl ⟨(Json.Number.integer.inj heq), rfl⟩
      · next heq => exact .inr ⟨(Json.Number.integer.inj heq), rfl⟩
    · rintro (⟨rfl, rfl⟩ | ⟨rfl, rfl⟩) <;> rfl

/-- A value means what it is spelled out as. -/
theorem readScalar_spelledOut {v w : Json} (h : v.SpellsOut w) :
    readScalar type w = .ok s ↔ readScalar type v = .ok s := by
  cases h with
  | same => rfl
  | digits hn =>
    rw [readScalar, readScalar, readText_render_iff type hn, readNumber_iff hn]

/-! ### Arrays -/

theorem forall₂_readScalar_spelledOut {vs ws : List Json} (h : List.Forall₂ Json.SpellsOut vs ws)
    (ss : List Scalar) :
    List.Forall₂ (fun w s ↦ readScalar type w = .ok s) ws ss ↔
      List.Forall₂ (fun v s ↦ readScalar type v = .ok s) vs ss := by
  induction h generalizing ss with
  | nil => rfl
  | cons hv _ ih => cases ss <;> simp [readScalar_spelledOut hv, ih]

/-- Items that are spelled out make the same payload. -/
theorem read_array_spelledOut {vs ws : List Json} {payload : Payload}
    (hshape : operator.shape ≠ .scalar) (h : List.Forall₂ Json.SpellsOut vs ws) :
    read field operator (.array ws) = .ok payload ↔
      read field operator (.array vs) = .ok payload := by
  cases hcase : operator.shape with
  | scalar => exact absurd hcase hshape
  | list =>
    have hnil : ws ≠ [] ↔ vs ≠ [] := by
      rw [← List.length_pos_iff, ← List.length_pos_iff, h.length_eq]
    rw [read_list_eq_ok_iff hcase, read_list_eq_ok_iff hcase, hnil]
    simp only [forall₂_readScalar_spelledOut h]
  | range =>
    rw [read_range_array_eq_ok_iff hcase, read_range_array_eq_ok_iff hcase]
    simp only [forall₂_readScalar_spelledOut h]

/-- A whole number of a payload may be stored as a number or as the text of its digits: as a single
value or among the items of an array, both are read or refused alike and give the same payload.
Strings and codes are the digits, whole numbers have to fit a word with sign, truth values have to
be zero or one, and dates are never numbers. -/
theorem read_spelledOut (field : Field) (operator : Operator) :
    (operator.shape = .scalar → ∀ v w, Json.SpellsOut v w → ∀ payload,
      read field operator w = .ok payload ↔ read field operator v = .ok payload) ∧
    (operator.shape ≠ .scalar → ∀ vs ws, List.Forall₂ Json.SpellsOut vs ws → ∀ payload,
      read field operator (.array ws) = .ok payload ↔
        read field operator (.array vs) = .ok payload) ∧
    (operator.shape = .scalar → ∀ n, Whole.IsWord n →
      (∀ v, Json.SpellsOut (.number (.integer n)) v → ∀ payload,
        read field operator v = .ok payload ↔
          ∃ s, field.type.Counts n s ∧ payload = .scalar s) ∧
      ((∃ s, field.type.Counts n s) ↔ field.type.Takes n)) := by
  have hscalar (hshape : operator.shape = .scalar) {v w : Json} (h : v.SpellsOut w)
      (payload : Payload) :
      read field operator w = .ok payload ↔ read field operator v = .ok payload := by
    rw [read_scalar_eq_ok_iff hshape, read_scalar_eq_ok_iff hshape]
    simp only [readScalar_spelledOut h]
  refine ⟨fun hshape v w h ↦ hscalar hshape h, ?_, ?_⟩
  · intro hshape vs ws h payload
    exact read_array_spelledOut hshape h
  · intro hshape n hn
    refine ⟨fun v hv payload ↦ ?_, FieldType.exists_counts_iff hn⟩
    rw [hscalar hshape hv, read_scalar_eq_ok_iff hshape]
    simp only [readScalar, readNumber_iff hn]

/-- The least and the greatest number as the ends of a range, one of them as text, and a number that
is too large for a word with sign. -/
theorem read_spelledOut_limits :
    (∃ payload, read .turnover .inRange (.array [.number (.integer (-9223372036854775808)),
        .number (.integer 18446744073709551615)]) = .ok payload ∧
      read .turnover .inRange (.array [.string "-9223372036854775808",
        .number (.integer 18446744073709551615)]) = .ok payload) ∧
    ∀ payload, read .employees .equal (.number (.integer 9223372036854775808)) ≠ .ok payload ∧
      read .employees .equal (.string "9223372036854775808") ≠ .ok payload := by
  have hleast : Json.SpellsOut (.number (.integer (-9223372036854775808)))
      (.string "-9223372036854775808") := .digits ⟨by decide, by decide⟩
  have hlarge : Json.SpellsOut (.number (.integer 9223372036854775808))
      (.string "9223372036854775808") := .digits ⟨by decide, by decide⟩
  have hread : read .turnover .inRange (.array [.number (.integer (-9223372036854775808)),
      .number (.integer 18446744073709551615)]) =
        .ok (.range (.decimal ⟨true, 9223372036854775808, 0, by decide, by decide⟩)
          (.decimal ⟨false, 18446744073709551615, 0, by decide, by decide⟩)) := by
    decide +kernel
  constructor
  · exact ⟨_, hread, ((read_spelledOut .turnover .inRange).2.1 (by decide) _ _
      (.cons hleast (.cons (.same _) .nil)) _).mpr hread⟩
  · obtain ⟨hforms, htakes⟩ := (read_spelledOut .employees .equal).2.2 rfl 9223372036854775808
      ⟨by decide, by decide⟩
    have hrefused {v : Json} (hv : Json.SpellsOut (.number (.integer 9223372036854775808)) v)
        (payload : Payload) : read .employees .equal v ≠ .ok payload := by
      intro h
      obtain ⟨s, hs, -⟩ := (hforms v hv payload).mp h
      have hle : (9223372036854775808 : Int) ≤ 9223372036854775807 := htakes.mp ⟨s, hs⟩
      exact absurd hle (by decide)
    exact fun payload ↦ ⟨hrefused (.same _) payload, hrefused hlarge payload⟩

end Payload

end SamplingFrame
