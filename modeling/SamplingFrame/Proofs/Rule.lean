import SamplingFrame.Proofs.Test

/-!
# Rules and their tests

A payload that is read has the shape that its operator asks for, and a list is never empty. So an
allowed operator has a test for every payload, and that test compares with at least one value. What
is wrong with a rule is said about the field and the operator of the rule.
-/

namespace SamplingFrame

namespace Payload

variable {field : Field} {operator : Operator}

/-! ### Shapes -/

/-- Whether a payload is a list of at least one value. -/
def IsFilledList : Payload → Prop
  | .list items => items ≠ []
  | .scalar _ | .range _ _ => False

/-- Whether a payload is a range. -/
def IsRange : Payload → Prop
  | .range _ _ => True
  | .scalar _ | .list _ => False

theorem readItems_ne_nil {vs : List Json} {ss : List Scalar} (hvs : vs ≠ [])
    (h : readItems field operator vs = .ok ss) : ss ≠ [] := by
  obtain ⟨v, vs, rfl⟩ := List.exists_cons_of_ne_nil hvs
  obtain ⟨s, -, h⟩ := bind_eq_ok.mp h
  obtain ⟨rest, -, h⟩ := bind_eq_ok.mp h
  cases h
  exact List.cons_ne_nil _ _

theorem parts_ne_nil (separator : Char) (text : String) : parts separator text ≠ [] := by
  rw [parts, ne_eq, List.map_eq_nil_iff]
  exact List.splitOnP_ne_nil _ _

theorem isFilledList_of_readList {raw : Json} {payload : Payload}
    (h : readList field operator raw = .ok payload) : payload.IsFilledList := by
  unfold readList at h
  split at h
  · cases h
  · next hne =>
    obtain ⟨items, hi, h⟩ := bind_eq_ok.mp h
    cases h
    exact readItems_ne_nil (fun hnil ↦ hne hnil) hi
  · split at h
    · cases h
    · obtain ⟨items, hi, h⟩ := bind_eq_ok.mp h
      cases h
      exact readItems_ne_nil (parts_ne_nil _ _) hi
  · cases h

theorem isRange_of_readEnds {raw low high : Json} {payload : Payload}
    (h : readEnds field operator raw low high = .ok payload) : payload.IsRange := by
  obtain ⟨l, -, h⟩ := bind_eq_ok.mp h
  obtain ⟨u, -, h⟩ := bind_eq_ok.mp h
  split at h
  · cases h
  · cases h
    trivial

theorem isRange_of_readRange {raw : Json} {payload : Payload}
    (h : readRange field operator raw = .ok payload) : payload.IsRange := by
  unfold readRange at h
  split at h
  · cases h
  · exact isRange_of_readEnds h
  · cases h
  · split at h
    · cases h
    · split at h
      · exact isRange_of_readEnds h
      · cases h
  · cases h

/-! ### Faults -/

/-- What can be wrong with a payload is said about its field and its operator. -/
def FaultOf (field : Field) (operator : Operator) (fault : Fault) : Prop :=
  fault = .emptyPayload field operator ∨ ∃ raw reason, fault = .badPayload field operator raw reason

theorem faultOf_refuse {α : Type} {raw : Json} {reason : Reason} {fault : Fault}
    (h : refuse (α := α) field operator raw reason = .error fault) :
    FaultOf field operator fault := by
  cases h
  exact .inr ⟨_, _, rfl⟩

theorem faultOf_readItem {v : Json} {fault : Fault}
    (h : readItem field operator v = .error fault) : FaultOf field operator fault := by
  unfold readItem at h
  split at h
  · cases h
  · exact faultOf_refuse h

theorem faultOf_readItems {vs : List Json} {fault : Fault}
    (h : readItems field operator vs = .error fault) : FaultOf field operator fault := by
  induction vs with
  | nil => cases h
  | cons v vs ih =>
    rcases bind_eq_error.mp h with h | ⟨s, -, h⟩
    · exact faultOf_readItem h
    · rcases bind_eq_error.mp h with h | ⟨ss, -, h⟩
      · exact ih h
      · cases h

theorem faultOf_list {vs : List Json} {fault : Fault}
    (h : (do return Payload.list (← readItems field operator vs)) = Except.error fault) :
    FaultOf field operator fault := by
  rcases bind_eq_error.mp h with h | ⟨items, -, h⟩
  · exact faultOf_readItems h
  · cases h

theorem faultOf_readEnds {raw low high : Json} {fault : Fault}
    (h : readEnds field operator raw low high = .error fault) :
    FaultOf field operator fault := by
  rcases bind_eq_error.mp h with h | ⟨l, -, h⟩
  · exact faultOf_readItem h
  · rcases bind_eq_error.mp h with h | ⟨u, -, h⟩
    · exact faultOf_readItem h
    · split at h
      · exact faultOf_refuse h
      · cases h

theorem faultOf_readList {raw : Json} {fault : Fault}
    (h : readList field operator raw = .error fault) : FaultOf field operator fault := by
  unfold readList at h
  split at h
  · cases h
    exact .inl rfl
  · exact faultOf_list h
  · split at h
    · cases h
      exact .inl rfl
    · exact faultOf_list h
  · exact faultOf_refuse h

theorem faultOf_readRange {raw : Json} {fault : Fault}
    (h : readRange field operator raw = .error fault) : FaultOf field operator fault := by
  unfold readRange at h
  split at h
  · cases h
    exact .inl rfl
  · exact faultOf_readEnds h
  · exact faultOf_refuse h
  · split at h
    · cases h
      exact .inl rfl
    · split at h
      · exact faultOf_readEnds h
      · exact faultOf_refuse h
  · exact faultOf_refuse h

theorem faultOf_read {raw : Json} {fault : Fault} (h : read field operator raw = .error fault) :
    FaultOf field operator fault := by
  unfold read at h
  split at h
  · rcases bind_eq_error.mp h with h | ⟨s, -, h⟩
    · exact faultOf_readItem h
    · cases h
  · exact faultOf_readList h
  · exact faultOf_readRange h

/-! ### Criteria -/

/-- A substring test is made of a text. -/
theorem exists_text_of_kind {s : Scalar} (h : s.kind = .text) : ∃ text, s = .text text := by
  cases s with
  | text text => exact ⟨text, rfl⟩
  | integer _ | decimal _ | date _ | boolean _ => cases h

/-- An operator that a field allows makes a criterion of every payload that is read for it. -/
theorem exists_criterion {raw : Json} {payload : Payload} (ha : field.allows operator = true)
    (h : read field operator raw = .ok payload) :
    ∃ c, Test.criterion? operator payload = some c ∧ c ≠ .oneOf [] := by
  have hkind := kind_of_mem_read h
  unfold read at h
  cases operator with
  | equal | notEqual | greaterThan | greaterThanOrEqual | lessThan | lessThanOrEqual =>
    obtain ⟨s, -, h⟩ := bind_eq_ok.mp h
    cases h
    exact ⟨_, rfl, nofun⟩
  | inList | notInList =>
    have hfilled := isFilledList_of_readList h
    cases payload with
    | list items => exact ⟨.oneOf items, rfl, fun hnil ↦ hfilled (Criterion.oneOf.inj hnil)⟩
    | scalar _ | range _ _ => exact hfilled.elim
  | inRange | notInRange =>
    have hrange := isRange_of_readRange h
    cases payload with
    | range low high => exact ⟨_, rfl, nofun⟩
    | scalar _ | list _ => exact hrange.elim
  | contains | doesNotContain =>
    obtain ⟨s, -, h⟩ := bind_eq_ok.mp h
    cases h
    have htype : field.type = .string := eq_of_beq ha
    have htext : s.kind = .text := by
      rw [hkind s List.mem_cons_self, Field.kind, htype]
      rfl
    obtain ⟨text, rfl⟩ := exists_text_of_kind htext
    exact ⟨_, rfl, nofun⟩

end Payload

namespace Rule

variable {rule : Rule}

/-- The test of a rule compares with at least one value. -/
theorem criterion_ne_of_test {t : Test} (h : rule.test = .ok t) : t.criterion ≠ .oneOf [] := by
  unfold test at h
  split at h
  · next ha =>
    obtain ⟨payload, hp, h⟩ := bind_eq_ok.mp h
    obtain ⟨c, hc, hne⟩ := Payload.exists_criterion ha hp
    rw [Test.ofPayload?_eq, hc] at h
    cases h
    exact hne
  · cases h

/-- What is wrong with a rule is that its field does not allow its operator, or that its value is no
payload for them. -/
theorem fault_of_test {fault : Fault} (h : rule.test = .error fault) :
    fault = .operatorNotAllowed rule.field rule.operator ∨
      Payload.FaultOf rule.field rule.operator fault := by
  unfold test at h
  split at h
  · next ha =>
    rcases bind_eq_error.mp h with h | ⟨payload, hp, h⟩
    · exact .inr (Payload.faultOf_read h)
    · obtain ⟨c, hc, -⟩ := Payload.exists_criterion ha hp
      rw [Test.ofPayload?_eq, hc] at h
      cases h
  · cases h
    exact .inl rfl

end Rule

end SamplingFrame
