import SamplingFrame.Proofs.Calendar.Written
import SamplingFrame.Proofs.Record
import SamplingFrame.Proofs.Rule.Reading
import SamplingFrame.Proofs.Scalar
import SamplingFrame.Scan

/-!
# Shown values as rules

The text that shows a value can be put into a rule: it is read as a value that is equal to the one
that was shown, and the rule that a field is equal to it selects exactly the records with such a
value. So what a row of a preview shows leads back to its record.
-/

namespace SamplingFrame

/-- A value of a type that its text stands for: of codes, one that is not empty and has no blanks at
its ends. -/
structure FieldType.Shows (type : FieldType) (s : Scalar) : Prop where
  kind : s.kind = type.kind
  code : type = .code → ∀ text, s = .text text → text ≠ "" ∧ Text.IsTrimmed text.toList

namespace Payload

variable {type : FieldType} {s : Scalar}

theorem trim_toList_ofList {cs : List Char} (h : Text.IsSolid cs) :
    Text.trim (String.ofList cs).toList = cs := by
  rw [String.toList_ofList, Text.trim_of_isTrimmed h.isTrimmed]

/-- A code that is not empty and has no blanks at its ends is read as it is. -/
theorem readText_code {text : String} (hne : text ≠ "") (h : Text.IsTrimmed text.toList) :
    readText .code text = .ok (.text text) := by
  have hfilled : text.toList.isEmpty = false := by
    rw [List.isEmpty_eq_false_iff]
    exact fun hnil ↦ hne (String.toList_eq_nil_iff.mp hnil)
  simp only [readText, Text.trim_of_isTrimmed h, hfilled, String.ofList_toList]
  rfl

/-- The text of a value is read as the value, but for the sign of a zero. -/
theorem readText_render (h : type.Shows s) : readText type s.render = .ok s.reread := by
  have hkind := h.kind
  cases type with
  | string =>
    cases s <;> cases hkind
    rfl
  | code =>
    cases s <;> cases hkind
    next text =>
    obtain ⟨hne, htrimmed⟩ := h.code rfl text rfl
    exact readText_code hne htrimmed
  | integer =>
    cases s <;> cases hkind
    simp only [readText, Scalar.render, trim_toList_ofList (Whole.isSolid_render _),
      Whole.readSigned_render, Scalar.reread]
  | decimal =>
    cases s <;> cases hkind
    next d =>
    have hread := Decimal.readAny_render d
    simp only [readText, Scalar.render, trim_toList_ofList (Decimal.isSolid_of_readAny hread),
      hread, Scalar.reread]
  | date =>
    cases s <;> cases hkind
    simp only [readText, readDate?, Scalar.render, trim_toList_ofList (Date.isSolid_render _),
      Date.readTight?_render, Option.some_or, Scalar.reread]
  | boolean =>
    cases s <;> cases hkind
    next b => cases b <;> decide

theorem exists_readText_render (h : type.Shows s) :
    ∃ s', readText type s.render = .ok s' ∧ s'.compare? s = some .eq :=
  ⟨s.reread, readText_render h, (s.compare?_reread s).trans s.compare?_self⟩

end Payload

/-! ### Selecting by what is shown -/

namespace Expression

variable {f : Field} {s s' : Scalar} {r : Record}

/-- The answer of a test for equality on a record that fits. -/
theorem matches?_equal (hs : s'.compare? s = some .eq) (hkind : s.kind = f.kind)
    (hr : r.FitsOn [f]) :
    ∃ b, Predicate.matches? (.test ⟨f, false, .compares .equal s'⟩) r = .ok b ∧
      (b = true ↔ ∃ x, r f = some x ∧ x.compare? s = some .eq) := by
  change ∃ b, Test.answer r ⟨f, false, .compares .equal s'⟩ = .ok b ∧ _
  cases hx : r f with
  | none => exact ⟨false, by rw [Test.answer, hx], by simp⟩
  | some x =>
    have hk : x.kind = s.kind := (hr f List.mem_cons_self x hx).trans hkind.symm
    obtain ⟨o, ho⟩ := Option.isSome_iff_exists.mp (Scalar.compare?_isSome_iff.mpr hk)
    have ho' : x.compare? s' = some o := (Scalar.compare?_congr_right hs x).trans ho
    refine ⟨o == .eq, ?_, by simp [ho]⟩
    rw [Test.answer, hx]
    refine bind_eq_ok.mpr ⟨_, Criterion.holds_compares ho' .equal, ?_⟩
    exact congrArg Except.ok (Bool.bne_false _)

/-- A row shows a present value of each of its columns as the text of the value, and nothing
else. -/
theorem mem_row_iff {columns : List Field} {text : String} (hs : r f = some s) :
    (f, text) ∈ r.row columns ↔ f ∈ columns ∧ text = s.render := by
  have htext : r.text f = s.render := by rw [Record.text, hs, Option.elim_some]
  rw [Record.row, List.mem_map]
  constructor
  · rintro ⟨g, hg, heq⟩
    obtain ⟨rfl, rfl⟩ := Prod.mk.inj heq
    exact ⟨Field.mem_inOrder.mp hg, htext⟩
  · rintro ⟨hf, rfl⟩
    exact ⟨f, Field.mem_inOrder.mpr hf, by rw [htext]⟩

/-- The text that shows a value is read as a value that is equal to it, and makes a rule that
selects exactly the records with an equal value. It is the text that a row shows of a record with
the value, so what a row shows makes a rule that selects its record. -/
theorem selects_shown (h : f.type.Shows s) :
    ∃ s' p, Payload.read f .equal (.string s.render) = .ok (.scalar s') ∧
      s'.compare? s = some .eq ∧
      (rule ⟨f, .equal, .string s.render⟩).predicate = .ok p ∧
      (∀ r : Record, r.FitsOn [f] → ∃ b, p.matches? r = .ok b ∧
        (b = true ↔ ∃ x, r f = some x ∧ x.compare? s = some .eq)) ∧
      ∀ (r : Record) (columns : List Field), r f = some s → f ∈ columns →
        (f, s.render) ∈ r.row columns ∧
        ∀ text, (f, text) ∈ r.row columns →
          (rule ⟨f, .equal, .string text⟩).predicate = .ok p ∧ p.matches? r = .ok true := by
  obtain ⟨s', hread, heq⟩ := Payload.exists_readText_render h
  have hpredicate := predicate_of_readScalar (v := .string s.render) (.inl rfl) hread
  refine ⟨s', _, (Payload.read_eq_scalar_iff rfl).mpr hread, heq, hpredicate, ?_, ?_⟩
  · exact fun r hr ↦ matches?_equal heq h.kind hr
  · intro r columns hs hf
    refine ⟨(mem_row_iff hs).mpr ⟨hf, rfl⟩, fun text htext ↦ ?_⟩
    obtain ⟨-, rfl⟩ := (mem_row_iff hs).mp htext
    have hfits : r.FitsOn [f] := by
      refine List.forall_mem_singleton.mpr fun x hx ↦ ?_
      obtain rfl := Option.some.inj (hx.symm.trans hs)
      exact h.kind
    obtain ⟨b, hb, hiff⟩ := matches?_equal heq h.kind hfits
    obtain rfl := hiff.mpr ⟨s, hs, Scalar.compare?_self s⟩
    exact ⟨hpredicate, hb⟩

/-- A zero with a sign, which is read back without it. -/
def signedZero : Decimal := ⟨true, 0, 3, Nat.zero_le _, by decide⟩

/-- A record of a turnover of zero. -/
def soldNothing : Record
  | .turnover => some (.decimal signedZero)
  | _ => none

theorem selects_shown_signedZero :
    Field.turnover.type.Shows (.decimal signedZero) ∧
      soldNothing.row [.turnover, .name] = [(.turnover, "-0.000"), (.name, "")] ∧
      ∃ s' p, Payload.read .turnover .equal (.string "-0.000") = .ok (.scalar s') ∧
        s' ≠ .decimal signedZero ∧ s'.compare? (.decimal signedZero) = some .eq ∧
        (rule ⟨.turnover, .equal, .string "-0.000"⟩).predicate = .ok p ∧
        p.matches? soldNothing = .ok true := by
  have hshows : Field.turnover.type.Shows (.decimal signedZero) := ⟨rfl, nofun⟩
  have htext : (Scalar.decimal signedZero).render = "-0.000" := by decide +kernel
  obtain ⟨s', p, hread, heq, hpredicate, -, hrow⟩ := selects_shown hshows
  obtain ⟨hmem, hsame⟩ := hrow soldNothing [.turnover] rfl (List.mem_singleton_self _)
  rw [htext] at hread hpredicate
  refine ⟨hshows, by decide +kernel, s', p, hread, ?_, heq, hpredicate, (hsame _ hmem).2⟩
  rintro rfl
  have hsign : Payload.read .turnover .equal (.string "-0.000") ≠
      .ok (.scalar (.decimal signedZero)) := by decide +kernel
  exact hsign hread

end Expression

end SamplingFrame
