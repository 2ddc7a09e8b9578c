import SamplingFrame.Proofs.Evaluation
import SamplingFrame.Proofs.Rule

/-!
# What a rule is read as

A value is read by the type of its field and in the shape that the operator asks for; apart from
that the operator is only quoted in faults. So a rule has a test exactly if its field allows its
operator and its value is a payload, and what the test answers is said by its criterion.
-/

namespace SamplingFrame

namespace Payload

variable {field : Field} {operator operator' : Operator}

theorem readItem_eq_ok_iff {v : Json} {s : Scalar} :
    readItem field operator v = .ok s ↔ readScalar field.type v = .ok s := by
  unfold readItem
  cases readScalar field.type v <;> simp [refuse]

/-- Values are read one by one. -/
theorem readItems_eq_ok_iff {vs : List Json} {ss : List Scalar} :
    readItems field operator vs = .ok ss ↔
      List.Forall₂ (fun v s ↦ readScalar field.type v = .ok s) vs ss := by
  induction vs generalizing ss with
  | nil =>
    rw [List.forall₂_nil_left_iff, readItems, Except.ok.injEq]
    exact eq_comm
  | cons v vs ih =>
    rw [List.forall₂_cons_left_iff]
    constructor
    · intro h
      obtain ⟨s, hs, h⟩ := bind_eq_ok.mp h
      obtain ⟨rest, hrest, h⟩ := bind_eq_ok.mp h
      cases h
      exact ⟨s, rest, readItem_eq_ok_iff.mp hs, ih.mp hrest, rfl⟩
    · rintro ⟨s, rest, hs, hrest, rfl⟩
      exact bind_eq_ok.mpr ⟨s, readItem_eq_ok_iff.mpr hs, bind_eq_ok.mpr ⟨rest, ih.mpr hrest, rfl⟩⟩

/-- Two values are the ends of a range unless the first is greater than the second. -/
theorem readEnds_eq_ok_iff {raw low high : Json} {payload : Payload} :
    readEnds field operator raw low high = .ok payload ↔
      ∃ l u, readScalar field.type low = .ok l ∧ readScalar field.type high = .ok u ∧
        l.compare? u ≠ some .gt ∧ payload = .range l u := by
  constructor
  · intro h
    obtain ⟨l, hl, h⟩ := bind_eq_ok.mp h
    obtain ⟨u, hu, h⟩ := bind_eq_ok.mp h
    split at h
    · cases h
    · next hle =>
      cases h
      exact ⟨l, u, readItem_eq_ok_iff.mp hl, readItem_eq_ok_iff.mp hu, hle, rfl⟩
  · rintro ⟨l, u, hl, hu, hle, rfl⟩
    refine bind_eq_ok.mpr ⟨l, readItem_eq_ok_iff.mpr hl, ?_⟩
    refine bind_eq_ok.mpr ⟨u, readItem_eq_ok_iff.mpr hu, ?_⟩
    rw [if_neg hle]
    rfl

theorem readItems_congr {vs : List Json} {ss : List Scalar}
    (h : readItems field operator vs = .ok ss) : readItems field operator' vs = .ok ss :=
  readItems_eq_ok_iff.mpr (readItems_eq_ok_iff.mp h)

theorem readEnds_congr {raw low high : Json} {payload : Payload}
    (h : readEnds field operator raw low high = .ok payload) :
    readEnds field operator' raw low high = .ok payload :=
  readEnds_eq_ok_iff.mpr (readEnds_eq_ok_iff.mp h)

theorem readList_congr {raw : Json} {payload : Payload}
    (h : readList field operator raw = .ok payload) :
    readList field operator' raw = .ok payload := by
  unfold readList at h ⊢
  split at h
  · cases h
  · obtain ⟨items, hi, h⟩ := bind_eq_ok.mp h
    exact bind_eq_ok.mpr ⟨items, readItems_congr hi, h⟩
  · split at h
    · cases h
    · next hfilled =>
      obtain ⟨items, hi, h⟩ := bind_eq_ok.mp h
      rw [if_neg hfilled]
      exact bind_eq_ok.mpr ⟨items, readItems_congr hi, h⟩
  · cases h

theorem readRange_congr {raw : Json} {payload : Payload}
    (h : readRange field operator raw = .ok payload) :
    readRange field operator' raw = .ok payload := by
  unfold readRange at h ⊢
  split at h
  · cases h
  · exact readEnds_congr h
  · cases h
  · split at h
    · cases h
    · next hfilled =>
      rw [if_neg hfilled]
      split at h
      · exact readEnds_congr h
      · cases h
  · cases h

/-- Operators of one shape take the same payloads. -/
theorem read_congr {raw : Json} {payload : Payload} (hshape : operator'.shape = operator.shape)
    (h : read field operator raw = .ok payload) : read field operator' raw = .ok payload := by
  unfold read at h ⊢
  rw [hshape]
  split at h
  · obtain ⟨s, hs, h⟩ := bind_eq_ok.mp h
    exact bind_eq_ok.mpr ⟨s, readItem_eq_ok_iff.mpr (readItem_eq_ok_iff.mp hs), h⟩
  · exact readList_congr h
  · exact readRange_congr h

theorem read_scalar_eq_ok_iff {raw : Json} {payload : Payload} (hshape : operator.shape = .scalar) :
    read field operator raw = .ok payload ↔
      ∃ s, readScalar field.type raw = .ok s ∧ payload = .scalar s := by
  rw [read, hshape]
  constructor
  · intro h
    obtain ⟨s, hs, h⟩ := bind_eq_ok.mp h
    cases h
    exact ⟨s, readItem_eq_ok_iff.mp hs, rfl⟩
  · rintro ⟨s, hs, rfl⟩
    exact bind_eq_ok.mpr ⟨s, readItem_eq_ok_iff.mpr hs, rfl⟩

theorem read_eq_scalar_iff {raw : Json} {s : Scalar} (hshape : operator.shape = .scalar) :
    read field operator raw = .ok (.scalar s) ↔ readScalar field.type raw = .ok s := by
  rw [read_scalar_eq_ok_iff hshape]
  constructor
  · rintro ⟨s', hs, heq⟩
    cases heq
    exact hs
  · exact fun hs ↦ ⟨s, hs, rfl⟩

/-- An array is a list exactly if it has items and each of them is a value. -/
theorem read_list_eq_ok_iff {vs : List Json} {payload : Payload} (hshape : operator.shape = .list) :
    read field operator (.array vs) = .ok payload ↔
      vs ≠ [] ∧ ∃ ss, List.Forall₂ (fun v s ↦ readScalar field.type v = .ok s) vs ss ∧
        payload = .list ss := by
  rw [read, hshape]
  cases vs with
  | nil => simp [readList]
  | cons v vs =>
    constructor
    · intro h
      obtain ⟨ss, hss, h⟩ := bind_eq_ok.mp h
      cases h
      exact ⟨List.cons_ne_nil _ _, ss, readItems_eq_ok_iff.mp hss, rfl⟩
    · rintro ⟨-, ss, hss, rfl⟩
      exact bind_eq_ok.mpr ⟨ss, readItems_eq_ok_iff.mpr hss, rfl⟩

/-- An array of two values is a range exactly if they are the ends of one. -/
theorem read_range_eq_ok_iff {low high : Json} {payload : Payload}
    (hshape : operator.shape = .range) :
    read field operator (.array [low, high]) = .ok payload ↔
      ∃ l u, readScalar field.type low = .ok l ∧ readScalar field.type high = .ok u ∧
        l.compare? u ≠ some .gt ∧ payload = .range l u := by
  rw [read, hshape]
  exact readEnds_eq_ok_iff

/-- An array is a range exactly if it has two items that are the ends of one. -/
theorem read_range_array_eq_ok_iff {vs : List Json} {payload : Payload}
    (hshape : operator.shape = .range) :
    read field operator (.array vs) = .ok payload ↔
      ∃ l u, List.Forall₂ (fun v s ↦ readScalar field.type v = .ok s) vs [l, u] ∧
        l.compare? u ≠ some .gt ∧ payload = .range l u := by
  have hsize (h : vs.length ≠ 2) : ¬ ∃ l u : Scalar,
      List.Forall₂ (fun v s ↦ readScalar field.type v = .ok s) vs [l, u] ∧
        l.compare? u ≠ some .gt ∧ payload = .range l u := by
    rintro ⟨l, u, hends, -⟩
    exact h hends.length_eq
  match vs with
  | [low, high] =>
    rw [read_range_eq_ok_iff hshape]
    simp [and_assoc]
  | [] | [_] | _ :: _ :: _ :: _ =>
    refine iff_of_false ?_ (hsize (by simp))
    rw [read, hshape]
    intro h
    cases h

end Payload

/-! ### Criteria of values of one kind -/

namespace Criterion

variable {f : Field} {actual s low high : Scalar} {o o' : Ordering}

theorem order_of_compare? (h : actual.compare? s = some o) : order f actual s = .ok o := by
  rw [order, h]

theorem holds_compares (h : actual.compare? s = some o) (relation : Relation) :
    (compares relation s).holds f actual = .ok (relation.holds o) := by
  rw [holds, order_of_compare? h]
  rfl

/-- A value is one of a list if it is equal to some of them. -/
theorem holds_oneOf {ss : List Scalar} (h : ∀ s ∈ ss, actual.kind = s.kind) :
    (oneOf ss).holds f actual = .ok (ss.any fun s ↦ actual.same s) := by
  rw [holds]
  induction ss with
  | nil => rfl
  | cons s ss ih =>
    obtain ⟨o, ho⟩ := Option.isSome_iff_exists.mp
      (Scalar.compare?_isSome_iff.mpr (h s List.mem_cons_self))
    have hrest := ih fun s hs ↦ h s (List.mem_cons_of_mem _ hs)
    rw [isOneOf, order_of_compare? ho, List.any_cons, Scalar.same, ho]
    cases o with
    | eq => rfl
    | lt | gt => exact hrest

/-- A value is within a range if it is not less than its lower end and not greater than its upper
end. -/
theorem holds_within (hlow : actual.compare? low = some o)
    (hhigh : actual.compare? high = some o') :
    (within low high).holds f actual = .ok (o != .lt && o' != .gt) := by
  rw [holds, order_of_compare? hlow, order_of_compare? hhigh]
  cases o <;> rfl

end Criterion

/-! ### Rules with tests -/

namespace Rule

/-- Whether a rule has a test. -/
def HasTest (rule : Rule) : Prop := ∃ t, rule.test = .ok t

variable {rule : Rule} {t : Test} {r : Record}

/-- The test of a rule has the criterion that the operator makes of the payload. -/
theorem test_eq_ok_iff :
    rule.test = .ok t ↔ rule.field.allows rule.operator = true ∧
      ∃ payload c, Payload.read rule.field rule.operator rule.value = .ok payload ∧
        Test.criterion? rule.operator payload = some c ∧
        t = ⟨rule.field, rule.operator.isNegative, c⟩ := by
  rw [test]
  split
  · next ha =>
    rw [bind_eq_ok]
    constructor
    · rintro ⟨payload, hp, h⟩
      rw [Test.ofPayload?_eq] at h
      cases hc : Test.criterion? rule.operator payload with
      | none =>
        rw [hc] at h
        cases h
      | some c =>
        rw [hc] at h
        cases h
        exact ⟨ha, payload, c, hp, hc, rfl⟩
    · rintro ⟨-, payload, c, hp, hc, rfl⟩
      refine ⟨payload, hp, ?_⟩
      rw [Test.ofPayload?_eq, hc]
      rfl
  · next ha => simp [ha]

/-- A rule has a test exactly if its field allows its operator and its value is a payload. -/
theorem hasTest_iff :
    rule.HasTest ↔ rule.field.allows rule.operator = true ∧
      ∃ payload, Payload.read rule.field rule.operator rule.value = .ok payload := by
  constructor
  · rintro ⟨t, ht⟩
    obtain ⟨ha, payload, -, hp, -⟩ := test_eq_ok_iff.mp ht
    exact ⟨ha, payload, hp⟩
  · rintro ⟨ha, payload, hp⟩
    obtain ⟨c, hc, -⟩ := Payload.exists_criterion ha hp
    exact ⟨_, test_eq_ok_iff.mpr ⟨ha, payload, c, hp, hc, rfl⟩⟩

/-- A missing value passes the negative operators and no others. -/
theorem value?_of_missing (h : rule.HasTest) (hr : r rule.field = none) :
    rule.value? r = some rule.operator.isNegative := by
  obtain ⟨t, ht⟩ := h
  obtain ⟨-, _, _, -, -, rfl⟩ := test_eq_ok_iff.mp ht
  refine value?_eq_some ht ?_
  rw [Test.answer, hr]

/-- A present value is judged by the criterion, and a negative operator turns the judgement
round. -/
theorem value?_of_present {payload : Payload} {c : Criterion} {actual : Scalar} {b : Bool}
    (ha : rule.field.allows rule.operator = true)
    (hp : Payload.read rule.field rule.operator rule.value = .ok payload)
    (hc : Test.criterion? rule.operator payload = some c) (hr : r rule.field = some actual)
    (hb : c.holds rule.field actual = .ok b) :
    rule.value? r = some (b != rule.operator.isNegative) := by
  refine value?_eq_some (test_eq_ok_iff.mpr ⟨ha, payload, c, hp, hc, rfl⟩) ?_
  rw [Test.answer, hr]
  exact bind_eq_ok.mpr ⟨b, hb, rfl⟩

end Rule

end SamplingFrame
