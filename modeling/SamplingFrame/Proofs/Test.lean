import SamplingFrame.Proofs.Except
import SamplingFrame.Test

/-!
# Tests on records of the catalog's kinds

The test of a rule compares a field with values of the field's own kind. So it has an answer for
every record in which the field is missing or of that kind.
-/

namespace SamplingFrame

/-- For the given fields a record holds no value of a kind other than the catalog's. -/
def Record.FitsOn (r : Record) (fields : List Field) : Prop :=
  ∀ f ∈ fields, ∀ s, r f = some s → s.kind = f.kind

/-- A statistical unit fits all fields. -/
theorem StatisticalUnit.fitsOn (u : StatisticalUnit) (fields : List Field) :
    u.record.FitsOn fields :=
  fun _ _ _ hs ↦ kind_of_record hs

/-! ### Kinds of payloads -/

namespace Payload

/-- Text is read as a value of the kind that was asked for. -/
theorem kind_of_readText {type : FieldType} {text : String} {s : Scalar}
    (h : readText type text = .ok s) : s.kind = type.kind := by
  cases type <;> simp only [readText] at h
  case string => cases h; rfl
  case code =>
    split at h
    · cases h
    · cases h; rfl
  all_goals
    split at h
    · cases h; rfl
    · cases h

/-- A number is read as a value of the kind that was asked for. -/
theorem kind_of_readNumber {type : FieldType} {n : Json.Number} {s : Scalar}
    (h : readNumber type n = .ok s) : s.kind = type.kind := by
  cases type with
  | string | code | decimal => exact kind_of_readText h
  | date => cases h
  | integer =>
    simp only [readNumber] at h
    split at h
    · cases h; rfl
    · cases h
  | boolean =>
    simp only [readNumber] at h
    split at h
    · cases h; rfl
    · cases h; rfl
    · cases h

/-- A stored value is read as a value of the kind that was asked for. -/
theorem kind_of_readScalar {type : FieldType} {v : Json} {s : Scalar}
    (h : readScalar type v = .ok s) : s.kind = type.kind := by
  cases v with
  | string text => exact kind_of_readText h
  | number n => exact kind_of_readNumber h
  | boolean b =>
    simp only [readScalar] at h
    split at h
    · next ht => cases h; rw [ht]; rfl
    · cases h
  | null | array _ | object _ => cases h

variable {field : Field} {operator : Operator}

theorem kind_of_readItem {v : Json} {s : Scalar} (h : readItem field operator v = .ok s) :
    s.kind = field.kind := by
  simp only [readItem] at h
  split at h
  · next hs => cases h; exact kind_of_readScalar hs
  · cases h

theorem kind_of_mem_readItems {vs : List Json} {ss : List Scalar}
    (h : readItems field operator vs = .ok ss) : ∀ s ∈ ss, s.kind = field.kind := by
  induction vs generalizing ss with
  | nil => cases h; simp
  | cons v vs ih =>
    obtain ⟨s, hs, h⟩ := bind_eq_ok.mp h
    obtain ⟨rest, hrest, h⟩ := bind_eq_ok.mp h
    cases h
    simpa using ⟨kind_of_readItem hs, ih hrest⟩

theorem kind_of_mem_readEnds {raw low high : Json} {payload : Payload}
    (h : readEnds field operator raw low high = .ok payload) :
    ∀ s ∈ payload.scalars, s.kind = field.kind := by
  obtain ⟨l, hl, h⟩ := bind_eq_ok.mp h
  obtain ⟨r, hr, h⟩ := bind_eq_ok.mp h
  split at h
  · cases h
  · cases h
    simpa [scalars] using ⟨kind_of_readItem hl, kind_of_readItem hr⟩

theorem kind_of_mem_readList {raw : Json} {payload : Payload}
    (h : readList field operator raw = .ok payload) :
    ∀ s ∈ payload.scalars, s.kind = field.kind := by
  unfold readList at h
  split at h
  · cases h
  · obtain ⟨items, hi, h⟩ := bind_eq_ok.mp h
    cases h
    exact kind_of_mem_readItems hi
  · split at h
    · cases h
    · obtain ⟨items, hi, h⟩ := bind_eq_ok.mp h
      cases h
      exact kind_of_mem_readItems hi
  · cases h

theorem kind_of_mem_readRange {raw : Json} {payload : Payload}
    (h : readRange field operator raw = .ok payload) :
    ∀ s ∈ payload.scalars, s.kind = field.kind := by
  unfold readRange at h
  split at h
  · cases h
  · exact kind_of_mem_readEnds h
  · cases h
  · split at h
    · cases h
    · split at h
      · exact kind_of_mem_readEnds h
      · cases h
  · cases h

/-- Every value in a payload is of the kind of its field. -/
theorem kind_of_mem_read {raw : Json} {payload : Payload}
    (h : read field operator raw = .ok payload) :
    ∀ s ∈ payload.scalars, s.kind = field.kind := by
  unfold read at h
  split at h
  · obtain ⟨s, hs, h⟩ := bind_eq_ok.mp h
    cases h
    simpa [scalars] using kind_of_readItem hs
  · exact kind_of_mem_readList h
  · exact kind_of_mem_readRange h

end Payload

/-! ### Answers -/

/-- Whether a criterion compares the values of a field with values of the same kind. -/
def Criterion.Suits (f : Field) : Criterion → Prop
  | .compares _ expected => expected.kind = f.kind
  | .oneOf items => ∀ s ∈ items, s.kind = f.kind
  | .within low high => low.kind = f.kind ∧ high.kind = f.kind
  | .contains _ => f.kind = .text

namespace Criterion

variable {f : Field} {actual : Scalar}

theorem order_eq_ok {expected : Scalar} (h : actual.kind = expected.kind) :
    ∃ o, order f actual expected = .ok o := by
  obtain ⟨o, ho⟩ := Option.isSome_iff_exists.mp (Scalar.compare?_isSome_iff.mpr h)
  exact ⟨o, by rw [order, ho]⟩

theorem isOneOf_eq_ok {items : List Scalar} (h : ∀ s ∈ items, actual.kind = s.kind) :
    ∃ b, isOneOf f actual items = .ok b := by
  induction items with
  | nil => exact ⟨false, rfl⟩
  | cons s ss ih =>
    obtain ⟨o, ho⟩ := order_eq_ok (f := f) (h s (by simp))
    obtain ⟨b, hb⟩ := ih fun s hs ↦ h s (by simp [hs])
    by_cases heq : o = .eq
    · exact ⟨true, bind_eq_ok.mpr ⟨o, ho, by rw [if_pos heq]; rfl⟩⟩
    · exact ⟨b, bind_eq_ok.mpr ⟨o, ho, by rw [if_neg heq]; exact hb⟩⟩

/-- A criterion that suits a field has an answer for every value of the field's kind. -/
theorem holds_eq_ok {criterion : Criterion} (hc : criterion.Suits f)
    (ha : actual.kind = f.kind) : ∃ b, criterion.holds f actual = .ok b := by
  cases criterion with
  | compares relation expected =>
    obtain ⟨o, ho⟩ := order_eq_ok (f := f) (ha.trans (Eq.symm hc))
    exact ⟨relation.holds o, bind_eq_ok.mpr ⟨o, ho, rfl⟩⟩
  | oneOf items => exact isOneOf_eq_ok fun s hs ↦ ha.trans (hc s hs).symm
  | within low high =>
    obtain ⟨hl, hh⟩ := hc
    obtain ⟨l, hl⟩ := order_eq_ok (f := f) (ha.trans hl.symm)
    obtain ⟨u, hu⟩ := order_eq_ok (f := f) (ha.trans hh.symm)
    by_cases hlt : l = .lt
    · exact ⟨false, bind_eq_ok.mpr ⟨l, hl, by rw [if_pos hlt]; rfl⟩⟩
    · refine ⟨u != .gt, bind_eq_ok.mpr ⟨l, hl, ?_⟩⟩
      rw [if_neg hlt]
      exact bind_eq_ok.mpr ⟨u, hu, rfl⟩
  | contains needle =>
    cases actual with
    | text s => exact ⟨_, rfl⟩
    | integer _ | decimal _ | date _ | boolean _ => exact nomatch ha.trans hc

end Criterion

namespace Test

/-- Whether the criterion of a test suits the field that it is about. -/
def Suits (t : Test) : Prop := t.criterion.Suits t.field

/-- A test that suits its field has an answer for a record that fits the field. -/
theorem answer_eq_ok {t : Test} {r : Record} (ht : t.Suits) (hr : r.FitsOn [t.field]) :
    ∃ b, t.answer r = .ok b := by
  unfold answer
  cases hv : r t.field with
  | none => exact ⟨t.negated, rfl⟩
  | some actual =>
    obtain ⟨b, hb⟩ := Criterion.holds_eq_ok ht (hr _ (by simp) _ hv)
    exact ⟨b != t.negated, bind_eq_ok.mpr ⟨b, hb, rfl⟩⟩

/-- What an operator asks of a present value, whether or not it is negated then. -/
def criterion? : Operator → Payload → Option Criterion
  | .equal, .scalar s | .notEqual, .scalar s => some (.compares .equal s)
  | .greaterThan, .scalar s => some (.compares .greater s)
  | .greaterThanOrEqual, .scalar s => some (.compares .greaterOrEqual s)
  | .lessThan, .scalar s => some (.compares .less s)
  | .lessThanOrEqual, .scalar s => some (.compares .lessOrEqual s)
  | .inList, .list items | .notInList, .list items => some (.oneOf items)
  | .inRange, .range low high | .notInRange, .range low high => some (.within low high)
  | .contains, .scalar (.text s) | .doesNotContain, .scalar (.text s) => some (.contains s)
  | _, _ => none

/-- The test of an operator is negated just if the operator is negative. -/
theorem ofPayload?_eq (f : Field) (op : Operator) (payload : Payload) :
    ofPayload? f op payload = (criterion? op payload).map (⟨f, op.isNegative, ·⟩) := by
  rcases payload with s | items | ⟨low, high⟩
  · cases op <;> cases s <;> rfl
  · cases op <;> rfl
  · cases op <;> rfl

/-- A payload of the field's kind makes a criterion that suits the field. -/
theorem suits_of_criterion? {f : Field} {op : Operator} {payload : Payload} {c : Criterion}
    (hp : ∀ s ∈ payload.scalars, s.kind = f.kind)
    (h : criterion? op payload = some c) : c.Suits f := by
  unfold criterion? at h
  split at h <;> cases h
  case h_7 | h_8 => exact hp
  case h_9 | h_10 => exact ⟨hp _ List.mem_cons_self, hp _ (List.mem_cons_of_mem _ (by simp))⟩
  -- The payload of a substring test is text, and so is the field.
  case h_11 | h_12 => exact (hp _ List.mem_cons_self).symm
  all_goals exact hp _ List.mem_cons_self

end Test

/-- The test of a rule is about the field of the rule, and suits it. -/
theorem Rule.suits_of_test {rule : Rule} {t : Test} (h : rule.test = .ok t) :
    t.field = rule.field ∧ t.Suits := by
  unfold Rule.test at h
  split at h
  · obtain ⟨payload, hp, h⟩ := bind_eq_ok.mp h
    split at h
    · next ht =>
      cases h
      rw [Test.ofPayload?_eq] at ht
      obtain ⟨c, hc, rfl⟩ := Option.map_eq_some_iff.mp ht
      exact ⟨rfl, Test.suits_of_criterion? (Payload.kind_of_mem_read hp) hc⟩
    · cases h
  · cases h

end SamplingFrame
