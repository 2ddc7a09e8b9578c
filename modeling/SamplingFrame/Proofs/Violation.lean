import SamplingFrame.Proofs.Expression.Predicate
import SamplingFrame.Proofs.Group.Predicate
import SamplingFrame.Proofs.Rule

/-!
# Values of the wrong kind

The test of a rule has no answer for a value of a kind that its field does not have, and has one for
every other value. So an evaluation breaks off exactly where it meets a value of the wrong kind, and
says for which field it was met. On statistical units no evaluation breaks off.
-/

namespace SamplingFrame

/-- A violation is about a field, for which a value of the given kind was found. -/
def Violation.IsAbout (v : Violation) (f : Field) (found : Kind) : Prop :=
  v = .wrongKind f found ∨ v = .notText f found

/-- The text of a violation names the field and the kind that was found. -/
theorem Violation.IsAbout.message_eq {v : Violation} {f : Field} {found : Kind}
    (h : v.IsAbout f found) :
    v.message = "记录源为字段 " ++ f.label ++ " 返回了 " ++ found.name ++ " 值，字段比较类型为 " ++
        f.type.name ∨
      v.message = "记录源为字符串字段 " ++ f.label ++ " 返回了 " ++ found.name ++ " 值" := by
  rcases h with rfl | rfl
  · exact .inl rfl
  · exact .inr rfl

/-! ### Values without an answer -/

namespace Criterion

variable {f : Field} {actual : Scalar}

theorem order_of_kind_ne {expected : Scalar} (he : expected.kind = f.kind)
    (ha : actual.kind ≠ f.kind) : order f actual expected = .error (.wrongKind f actual.kind) := by
  have hnone : actual.compare? expected = none := by
    rw [← Option.not_isSome_iff_eq_none, Scalar.compare?_isSome_iff, he]
    exact ha
  rw [order, hnone]

/-- A criterion of a field has no answer for a value of another kind. -/
theorem holds_of_kind_ne {criterion : Criterion} (hc : criterion.Suits f)
    (hne : criterion ≠ .oneOf []) (ha : actual.kind ≠ f.kind) :
    ∃ v, criterion.holds f actual = .error v ∧ v.IsAbout f actual.kind := by
  cases criterion with
  | compares relation expected =>
    refine ⟨_, ?_, .inl rfl⟩
    rw [holds, order_of_kind_ne hc ha]
    rfl
  | oneOf items =>
    -- The first item is enough; without items the value would not be looked at.
    obtain ⟨s, ss, rfl⟩ := List.exists_cons_of_ne_nil fun h ↦ hne (congrArg oneOf h)
    refine ⟨_, ?_, .inl rfl⟩
    rw [holds, isOneOf, order_of_kind_ne (hc s List.mem_cons_self) ha]
    rfl
  | within low high =>
    refine ⟨_, ?_, .inl rfl⟩
    rw [holds, order_of_kind_ne hc.1 ha]
    rfl
  | contains needle =>
    cases actual with
    | text s => exact absurd (Eq.symm hc) ha
    | integer _ | decimal _ | date _ | boolean _ => exact ⟨_, rfl, .inr rfl⟩

end Criterion

namespace Test

variable {t : Test} {r : Record}

/-- A test breaks off at a value of the wrong kind. -/
theorem answer_of_kind_ne {s : Scalar} (ht : t.Suits) (hne : t.criterion ≠ .oneOf [])
    (hs : r t.field = some s) (hk : s.kind ≠ t.field.kind) :
    ∃ v, t.answer r = .error v ∧ v.IsAbout t.field s.kind := by
  obtain ⟨v, hv, habout⟩ := Criterion.holds_of_kind_ne ht hne hk
  refine ⟨v, ?_, habout⟩
  rw [answer, hs]
  exact bind_eq_error.mpr (.inl hv)

/-- A test that has an answer has met no value of the wrong kind. -/
theorem kind_of_answer {b : Bool} (ht : t.Suits) (hne : t.criterion ≠ .oneOf [])
    (h : t.answer r = .ok b) : ∀ s, r t.field = some s → s.kind = t.field.kind := by
  intro s hs
  by_contra hk
  obtain ⟨v, hv, -⟩ := answer_of_kind_ne ht hne hs hk
  rw [h] at hv
  cases hv

/-- A test that breaks off has met a value of the wrong kind. -/
theorem exists_of_answer_eq_error {v : Violation} (ht : t.Suits) (h : t.answer r = .error v) :
    ∃ s, r t.field = some s ∧ s.kind ≠ t.field.kind := by
  by_contra hnone
  push Not at hnone
  obtain ⟨b, hb⟩ := answer_eq_ok (r := r) ht fun f hf s hs ↦ by
    rw [List.mem_singleton.mp hf] at hs ⊢
    exact hnone s hs
  rw [hb] at h
  cases h

end Test

theorem Rule.TestsOf.criterion_ne {rules : List Rule} {tests : List Test}
    (h : TestsOf rules tests) : ∀ t ∈ tests, t.criterion ≠ .oneOf [] := by
  induction h with
  | nil => simp
  | cons ht _ ih =>
    intro u hu
    rcases List.mem_cons.mp hu with rfl | hu
    · exact criterion_ne_of_test ht
    · exact ih u hu

/-- Every operator that a field allows has a test for each payload that is read for it. -/
theorem Rule.test_ne_noTest (rule : Rule) (f : Field) (op : Operator) :
    rule.test ≠ .error (.noTest f op) := by
  intro h
  rcases fault_of_test h with h | h | ⟨raw, reason, h⟩ <;> cases h

/-! ### Where an evaluation breaks off -/

namespace Predicate

variable {p : Predicate Test} {r : Record} {f : Field} {s : Scalar}

/-- An evaluation breaks off at a field of which it meets a value of the wrong kind. -/
structure BreaksOffAt (p : Predicate Test) (r : Record) (f : Field) (s : Scalar) : Prop where
  outcome : ∃ v, p.matches? r = .error v ∧
    (v.message = "记录源为字段 " ++ f.label ++ " 返回了 " ++ s.kind.name ++
        " 值，字段比较类型为 " ++ f.type.name ∨
      v.message = "记录源为字符串字段 " ++ f.label ++ " 返回了 " ++ s.kind.name ++ " 值")
  /-- The field is read last and only once, and what was read before is missing or of its kind. -/
  last : ∃ before, p.reads r = before ++ [f] ∧ f ∉ before ∧
    ∀ g ∈ before, ∀ x, r g = some x → x.kind = g.kind

/-- An evaluation breaks off exactly where it meets a value of the wrong kind. -/
structure DiscernsKinds (p : Predicate Test) : Prop where
  violated_iff : ∀ r, (∃ v, p.matches? r = .error v) ↔
    ∃ f ∈ p.reads r, ∃ s, r f = some s ∧ s.kind ≠ f.kind
  breaksOffAt : ∀ r, ∀ f ∈ p.reads r, ∀ s, r f = some s → s.kind ≠ f.kind → p.BreaksOffAt r f s
  unit : ∀ u : StatisticalUnit, ∃ b, p.matches? u.record = .ok b

variable {rules : List Rule}

/-- The test that meets a value of the wrong kind is the last one that is asked. -/
theorem breaksOffAt_of_testsOf (h : Rule.TestsOf rules p.tests) {t : Test}
    (ht : t ∈ (p.run r).asked) (hs : r t.field = some s) (hk : s.kind ≠ t.field.kind) :
    p.BreaksOffAt r t.field s := by
  have hasked : ∀ u ∈ (p.run r).asked, u.Suits ∧ u.criterion ≠ .oneOf [] := by
    intro u hu
    have hu := (asked_eval_sublist (Test.answer r) p).subset hu
    exact ⟨h.suits u hu, h.criterion_ne u hu⟩
  obtain ⟨v, hv, habout⟩ := Test.answer_of_kind_ne (hasked t ht).1 (hasked t ht).2 hs hk
  rcases outcome_eval (Test.answer r) p with ⟨b, -, hall⟩ | ⟨e, before, u, hout, hrun, hu, hbefore⟩
  · obtain ⟨a, ha⟩ := hall t ht
    rw [hv] at ha
    cases ha
  · have hanswered : t ∉ before := by
      intro hmem
      obtain ⟨a, ha⟩ := hbefore t hmem
      rw [hv] at ha
      cases ha
    have hright : ∀ w ∈ before, ∀ x, r w.field = some x → x.kind = w.field.kind := by
      intro w hw x hx
      obtain ⟨a, ha⟩ := hbefore w hw
      have hmem : w ∈ (p.run r).asked := by
        rw [run, hrun]
        exact List.mem_append_left _ hw
      exact Test.kind_of_answer (hasked w hmem).1 (hasked w hmem).2 ha x hx
    obtain rfl : t = u := by
      rw [run, hrun] at ht
      simpa [hanswered] using ht
    obtain rfl : v = e := Except.error.inj (hv.symm.trans hu)
    refine ⟨⟨v, hout, habout.message_eq⟩, before.map (·.field), ?_, ?_, ?_⟩
    · rw [reads, run, hrun]
      simp
    · intro hf
      obtain ⟨w, hw, hfield⟩ := List.mem_map.mp hf
      rw [← hfield] at hs hk
      exact hk (hright w hw s hs)
    · intro g hg
      obtain ⟨w, hw, rfl⟩ := List.mem_map.mp hg
      exact hright w hw

theorem exists_of_violated (h : Rule.TestsOf rules p.tests) {v : Violation}
    (hv : p.matches? r = .error v) :
    ∃ t ∈ (p.run r).asked, ∃ s, r t.field = some s ∧ s.kind ≠ t.field.kind := by
  rcases outcome_eval (Test.answer r) p with ⟨b, hb, -⟩ | ⟨e, before, t, -, hrun, ht, -⟩
  · cases hv.symm.trans hb
  · have hmem : t ∈ (p.run r).asked := by
      rw [run, hrun]
      exact List.mem_append_right _ (List.mem_singleton_self t)
    have hsuits := h.suits t ((asked_eval_sublist (Test.answer r) p).subset hmem)
    exact ⟨t, hmem, Test.exists_of_answer_eq_error hsuits ht⟩

theorem discernsKinds_of_testsOf (h : Rule.TestsOf rules p.tests) : p.DiscernsKinds := by
  refine ⟨fun r ↦ ⟨?_, ?_⟩, ?_, fun u ↦ ?_⟩
  · rintro ⟨v, hv⟩
    obtain ⟨t, ht, s, hs, hk⟩ := exists_of_violated h hv
    exact ⟨t.field, List.mem_map_of_mem ht, s, hs, hk⟩
  · rintro ⟨f, hf, s, hs, hk⟩
    obtain ⟨t, ht, rfl⟩ := List.mem_map.mp hf
    obtain ⟨v, hv, -⟩ := (breaksOffAt_of_testsOf h ht hs hk).outcome
    exact ⟨v, hv⟩
  · intro r f hf s hs hk
    obtain ⟨t, ht, rfl⟩ := List.mem_map.mp hf
    exact breaksOffAt_of_testsOf h ht hs hk
  · cases hv : p.matches? u.record with
    | ok b => exact ⟨b, rfl⟩
    | error v =>
      obtain ⟨t, -, s, hs, hk⟩ := exists_of_violated h hv
      exact absurd (StatisticalUnit.kind_of_record hs) hk

end Predicate

/-- The evaluation of a group or an expression breaks off exactly at the first value of the wrong
kind that it meets, and names its field; no rule lacks a test for its payload. -/
theorem discernsKinds_of_predicate :
    (∀ (g : Group) p, g.predicate = .ok p → p.DiscernsKinds) ∧
    (∀ (e : Expression) p, e.predicate = .ok p → p.DiscernsKinds) ∧
    ∀ (rule : Rule) f op, rule.test ≠ .error (.noTest f op) := by
  refine ⟨fun g p h ↦ ?_, fun e p h ↦ ?_, Rule.test_ne_noTest⟩
  · exact Predicate.discernsKinds_of_testsOf (Group.testsOf_leaves h)
  · exact Predicate.discernsKinds_of_testsOf (Expression.testsOf_leaves h)

/-- A record that has no employees and a text for the year of their count. -/
def Record.unreadable : Record
  | .employees => some (.integer 0)
  | .employeesYear => some (.text "unknown")
  | _ => none

theorem discernsKinds_of_predicate_mixed :
    ∃ p, Expression.mixed.predicate = .ok p ∧ p.DiscernsKinds ∧
      p.reads .unreadable = [.employees, .employeesYear] ∧
      p.BreaksOffAt .unreadable .employeesYear (.text "unknown") := by
  have hkinds := discernsKinds_of_predicate.2.1 Expression.mixed _ rfl
  refine ⟨_, rfl, hkinds, rfl, ?_⟩
  exact hkinds.breaksOffAt .unreadable .employeesYear (by decide) _ rfl (by decide)

end SamplingFrame
