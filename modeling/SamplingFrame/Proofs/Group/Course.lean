import SamplingFrame.Proofs.Group.Predicate

/-!
# The evaluation of a group

The terms of a group are evaluated from left to right. A term is skipped exactly where the value
reached before it already is the value after it, and later terms are then judged by that same value.
-/

namespace SamplingFrame

namespace Group

/-! ### The value of a group -/

variable (r : Record)

mutual

/-- The value of a group for a record: the left fold of the values of its terms. -/
def value? : Group → Option Bool
  | mk rules groups => do
    let us ← Term.traverse (Rule.value? r) rules
    let vs ← subgroupValues? groups
    return Term.fold (us ++ vs)

/-- Subgroups with their values. -/
def subgroupValues? : List (Term Group) → Option (List (Term Bool))
  | [] => some []
  | ⟨g, c⟩ :: ts => do
    let value ← value? g
    let us ← subgroupValues? ts
    return ⟨value, c⟩ :: us

end

variable {r}

theorem subgroupValues?_eq (ts : List (Term Group)) :
    subgroupValues? r ts = Term.traverse (value? r) ts := by
  induction ts with
  | nil => rfl
  | cons t ts ih => rw [subgroupValues?, ih]; rfl

theorem value?_of_rulePredicate {rule : Rule} {p : Predicate Test} (h : rulePredicate rule = .ok p)
    (hr : ∀ t ∈ p.tests, t.answer r = .ok (t.passes r)) :
    rule.value? r = some (p.value (Test.passes r)) := by
  obtain ⟨t, ht, h⟩ := bind_eq_ok.mp h
  cases h
  exact Rule.value?_eq_some ht (hr t (List.mem_singleton_self t))

/-- A group has the value of its predicate. -/
theorem value?_eq_some {g : Group} {p : Predicate Test} (h : g.predicate = .ok p)
    (hr : ∀ t ∈ p.tests, t.answer r = .ok (t.passes r)) :
    g.value? r = some (p.value (Test.passes r)) := by
  induction g generalizing p with
  | mk rules groups ih =>
    obtain ⟨hs, qs, hqs, rfl⟩ := predicate_eq_ok_iff.mp h
    rw [Term.tests_join ((sequenced_terms_iff hqs).mpr hs)] at hr
    obtain ⟨us, vs, hus, hvs, rfl⟩ := traverse_terms_eq_ok_iff.mp hqs
    have hrules : Term.traverse (Rule.value? r) rules =
        some (us.map (Term.map (·.value (Test.passes r)))) := by
      refine Term.traverse_values hus fun t _ u hu hp ↦ value?_of_rulePredicate hp fun test ht ↦ ?_
      exact hr test (List.mem_flatMap_of_mem (List.mem_append_left _ hu) ht)
    have hgroups : Term.traverse (value? r) groups =
        some (vs.map (Term.map (·.value (Test.passes r)))) := by
      refine Term.traverse_values hvs fun t ht u hu hp ↦ ih t ht hp fun test htest ↦ hr test ?_
      exact List.mem_flatMap_of_mem (List.mem_append_right _ hu) htest
    rw [value?, hrules, subgroupValues?_eq, hgroups, Term.value_join, List.map_append]
    rfl

/-! ### The order of evaluation -/

/-- How the predicate of a group is evaluated on a record, term by term. -/
structure Course (g : Group) (p : Predicate Test) (r : Record) (part : Nat → Predicate Test)
    (value : Nat → Bool) (order : List Nat) : Prop
    extends p.Course r (Term.outline g.terms) part value order where
  sequenced : Term.Sequenced g.terms
  part_eq : ∀ i t, g.terms[i]? = some t →
    nodePredicate t.node = .ok (part i) ∧ (part i).matches? r = .ok (value i)
  /-- The outcome is the left fold of the values of all terms. -/
  fold_eq : p.matches? r = .ok (Term.valueBefore value g.terms g.terms.length)
  lt_length : ∀ i ∈ order, i < g.terms.length
  /-- The first term is evaluated, and a later one where the value reached before it is the one that
  its connective asks for. -/
  mem_order_iff : ∀ i t, g.terms[i]? = some t →
    (i ∈ order ↔ ∀ c, t.connective = some c → c.isTight = Term.valueBefore value g.terms i)
  /-- A skipped term leaves the value as it is. -/
  skipped : ∀ i < g.terms.length, i ∉ order →
    Term.valueBefore value g.terms (i + 1) = Term.valueBefore value g.terms i
  /-- A group without terms is true and reads nothing, by itself or as a term. -/
  empty : g = .empty → p.matches? r = .ok true ∧ p.reads r = []
  empty_term : ∀ i c, g.terms[i]? = some ⟨.inr .empty, c⟩ →
    value i = true ∧ (part i).reads r = []

/-- On a record that fits the fields of a group, exactly those terms are evaluated that can still
change the value, and the value is the left fold at every depth. -/
theorem exists_course_of_terms {g : Group} {p : Predicate Test} (h : g.predicate = .ok p)
    (hr : r.FitsOn g.fields) :
    ∃ part value order, g.Course p r part value order ∧
      g.value? r = some (Term.valueBefore value g.terms g.terms.length) := by
  obtain ⟨hs, qs, hqs, hp⟩ := predicate_eq_ok_iff.mp h
  obtain ⟨part, hpart, rfl⟩ := Term.exists_parts hqs
  rw [← Term.bind_outline] at hp
  subst hp
  have hanswers := (testsOf_leaves h).answer_eq_ok hr
  have htests := Term.tests_outline hs
  have hcourse := Predicate.course_of_answers htests hanswers
  refine ⟨part, _, _, ⟨hcourse, hs, ?_, ?_, ?_, ?_, ?_, ?_, ?_⟩, ?_⟩
  · intro i t ht
    obtain ⟨hi, -⟩ := List.getElem?_eq_some_iff.mp ht
    exact ⟨hpart i t ht, hcourse.part_value i (by simpa [htests] using hi)⟩
  · rw [← Term.value_outline]
    exact hcourse.outcome
  · intro i hi
    rw [← List.mem_range, ← htests]
    exact hcourse.mem_tests i hi
  · intro i t ht
    exact Term.mem_asked_outline hs ht
  · intro i hi hskip
    exact Term.valueBefore_succ_of_not_mem hs (List.getElem?_eq_getElem hi) hskip
  · rintro rfl
    exact ⟨rfl, rfl⟩
  · intro i c ht
    have halways : part i = .always := (Except.ok.inj (hpart i _ ht)).symm
    rw [halways]
    exact ⟨rfl, rfl⟩
  · have houtcome := hcourse.outcome.symm.trans (matches?_of_fits h hr)
    rw [← Term.value_outline, value?_eq_some h hanswers, Except.ok.inj houtcome]

/-- A group in which the second term is skipped on a unit without employees, and later ones are
not. -/
def interrupted : Group :=
  .mk [.first (.isOne .employees), .next .and (.isOne .turnoverYear),
    .next .or (.isOne .employeesYear)]
    [.next .and (.mk [.first (.isOne .regId)] []), .next .orNot .empty]

theorem exists_course_of_terms_interrupted :
    ∃ p, interrupted.predicate = .ok p ∧
      (StatisticalUnit.record .unstaffed).FitsOn interrupted.fields ∧
      p.reads (StatisticalUnit.record .unstaffed) = [.employees, .employeesYear, .regId] ∧
      ∃ part value order,
        interrupted.Course p (StatisticalUnit.record .unstaffed) part value order ∧
        interrupted.value? (StatisticalUnit.record .unstaffed) =
          some (Term.valueBefore value interrupted.terms interrupted.terms.length) := by
  refine ⟨_, rfl, StatisticalUnit.fitsOn _ _, rfl, ?_⟩
  exact exists_course_of_terms rfl (StatisticalUnit.fitsOn _ _)

end Group

end SamplingFrame
