import Mathlib.Data.List.Forall2
import SamplingFrame.Proofs.Test

/-!
# Evaluation of predicates

Where every test has a value, the evaluation of a predicate ends with the truth-table value of the
tree and asks a sublist of its tests. A predicate that is composed of parts is evaluated by
evaluating its outline and running each part that the outline asks for.
-/

namespace SamplingFrame

namespace Predicate

variable {α β ε : Type}

/-! ### Tests with values -/

/-- The tests that are asked where every test has a value, in order. -/
def asked (value : α → Bool) : Predicate α → List α
  | .always => []
  | .test t => [t]
  | .join c p q =>
    if c.needsSecond (p.value value) then p.asked value ++ q.asked value else p.asked value

/-- Where every test has a value, so has the predicate. -/
theorem eval_of_values {answer : α → Except ε Bool} {value : α → Bool} {p : Predicate α}
    (h : ∀ t ∈ p.tests, answer t = .ok (value t)) :
    p.eval answer = ⟨p.asked value, .ok (p.value value)⟩ := by
  induction p with
  | always => rfl
  | test t => simp [eval, asked, Predicate.value, h t (by simp [tests])]
  | join c p q ihp ihq =>
    have hp := ihp fun t ht ↦ h t (by simp [tests, ht])
    have hq := ihq fun t ht ↦ h t (by simp [tests, ht])
    simp only [eval, asked, Predicate.value, hp, hq]
    split
    · rfl
    -- The second operand has a value here too, but one that is not looked at.
    · next hn => rw [Connective.apply_of_not_needsSecond (by simpa using hn)]

/-- No test is asked twice or out of its order. -/
theorem asked_sublist_tests (value : α → Bool) (p : Predicate α) :
    (p.asked value).Sublist p.tests := by
  induction p with
  | always => exact List.Sublist.refl _
  | test t => exact List.Sublist.refl _
  | join c p q ihp ihq =>
    simp only [asked, tests]
    split
    · exact ihp.append ihq
    · exact ihp.trans (List.sublist_append_left _ _)

/-! ### Tests that may fail -/

section Fallible

variable {answer : α → Except ε Bool} {c : Connective} {p q : Predicate α} {asked : List α}

theorem eval_join_of_error {e : ε} (h : p.eval answer = ⟨asked, .error e⟩) :
    (join c p q).eval answer = ⟨asked, .error e⟩ := by
  rw [eval, h]

theorem eval_join_of_skipped {a : Bool} (h : p.eval answer = ⟨asked, .ok a⟩)
    (hn : c.needsSecond a = false) : (join c p q).eval answer = ⟨asked, .ok a⟩ := by
  simp [eval, h, hn]

theorem eval_join_of_needed {a : Bool} (h : p.eval answer = ⟨asked, .ok a⟩)
    (hn : c.needsSecond a = true) :
    (join c p q).eval answer =
      ⟨asked ++ (q.eval answer).asked, c.apply a <$> (q.eval answer).outcome⟩ := by
  simp only [eval, h, hn, if_true]
  obtain ⟨more, outcome⟩ := q.eval answer
  cases outcome <;> rfl

/-- The evaluation of a joined predicate ends in its first operand, with a failure or with a value
that leaves nothing open, or goes on to the second one. -/
theorem eval_join_cases (answer : α → Except ε Bool) (c : Connective) (p q : Predicate α) :
    (∃ asked e, p.eval answer = ⟨asked, .error e⟩ ∧
      (join c p q).eval answer = ⟨asked, .error e⟩) ∨
    (∃ asked a, p.eval answer = ⟨asked, .ok a⟩ ∧ c.needsSecond a = false ∧
      (join c p q).eval answer = ⟨asked, .ok a⟩) ∨
    ∃ asked a, p.eval answer = ⟨asked, .ok a⟩ ∧ c.needsSecond a = true ∧
      (join c p q).eval answer =
        ⟨asked ++ (q.eval answer).asked, c.apply a <$> (q.eval answer).outcome⟩ := by
  cases hp : p.eval answer with
  | mk asked outcome =>
    cases outcome with
    | error e => exact .inl ⟨asked, e, rfl, eval_join_of_error hp⟩
    | ok a =>
      cases hn : c.needsSecond a with
      | false => exact .inr (.inl ⟨asked, a, rfl, hn, eval_join_of_skipped hp hn⟩)
      | true => exact .inr (.inr ⟨asked, a, rfl, hn, eval_join_of_needed hp hn⟩)

/-- No test is asked twice or out of its order, even if one of them fails. -/
theorem asked_eval_sublist (answer : α → Except ε Bool) (p : Predicate α) :
    (p.eval answer).asked.Sublist p.tests := by
  induction p with
  | always => exact List.Sublist.refl _
  | test t => exact List.Sublist.refl _
  | join c p q ihp ihq =>
    rcases eval_join_cases answer c p q with
      ⟨asked, e, hp, h⟩ | ⟨asked, a, hp, -, h⟩ | ⟨asked, a, hp, -, h⟩
    · rw [hp] at ihp
      rw [h]
      exact ihp.trans (List.sublist_append_left _ _)
    · rw [hp] at ihp
      rw [h]
      exact ihp.trans (List.sublist_append_left _ _)
    · rw [hp] at ihp
      rw [h]
      exact ihp.append ihq

/-- Two ways of answering that agree on the tests asked under one of them give the same course. -/
theorem eval_congr {answer' : α → Except ε Bool}
    (h : ∀ t ∈ (p.eval answer).asked, answer' t = answer t) : p.eval answer' = p.eval answer := by
  induction p with
  | always => rfl
  | test t => rw [eval, eval, h t (List.mem_singleton_self t)]
  | join c p q ihp ihq =>
    rcases eval_join_cases answer c p q with
      ⟨asked, e, hp, hjoin⟩ | ⟨asked, a, hp, hn, hjoin⟩ | ⟨asked, a, hp, hn, hjoin⟩
    · rw [hjoin] at h ⊢
      rw [hp] at ihp
      exact eval_join_of_error (ihp h)
    · rw [hjoin] at h ⊢
      rw [hp] at ihp
      exact eval_join_of_skipped (ihp h) hn
    · rw [hjoin] at h ⊢
      rw [hp] at ihp
      have hfirst := ihp fun t ht ↦ h t (List.mem_append_left _ ht)
      have hsecond := ihq fun t ht ↦ h t (List.mem_append_right _ ht)
      rw [eval_join_of_needed hfirst hn, hsecond]

/-- An evaluation has a value exactly if all tests that were asked have an answer. Otherwise the
test that was asked last fails, and no other. -/
theorem outcome_eval (answer : α → Except ε Bool) (p : Predicate α) :
    (∃ b, (p.eval answer).outcome = .ok b ∧
      ∀ t ∈ (p.eval answer).asked, ∃ a, answer t = .ok a) ∨
    ∃ e before t, (p.eval answer).outcome = .error e ∧ (p.eval answer).asked = before ++ [t] ∧
      answer t = .error e ∧ ∀ u ∈ before, ∃ a, answer u = .ok a := by
  induction p with
  | always => exact .inl ⟨true, rfl, nofun⟩
  | test t =>
    cases ht : answer t with
    | ok a => exact .inl ⟨a, ht, fun u hu ↦ ⟨a, by rwa [List.mem_singleton.mp hu]⟩⟩
    | error e => exact .inr ⟨e, [], t, ht, rfl, ht, nofun⟩
  | join c p q ihp ihq =>
    rcases eval_join_cases answer c p q with
      ⟨asked, e, hp, h⟩ | ⟨asked, a, hp, -, h⟩ | ⟨asked, a, hp, -, h⟩
    · rw [hp] at ihp
      rw [h]
      exact ihp
    · rw [hp] at ihp
      rw [h]
      exact ihp
    · rw [hp] at ihp
      rw [h]
      obtain ⟨_, -, hasked⟩ | ⟨_, _, _, he, -⟩ := ihp
      · rcases ihq with ⟨b, hb, hmore⟩ | ⟨e, before, t, he, hmore, ht, hbefore⟩
        · refine .inl ⟨c.apply a b, by rw [hb]; rfl, fun t ht ↦ ?_⟩
          rcases List.mem_append.mp ht with ht | ht
          · exact hasked t ht
          · exact hmore t ht
        · refine .inr ⟨e, asked ++ before, t, by rw [he]; rfl, ?_, ht, fun u hu ↦ ?_⟩
          · rw [hmore, List.append_assoc]
          · rcases List.mem_append.mp hu with hu | hu
            · exact hasked u hu
            · exact hbefore u hu
      · cases he

end Fallible

/-! ### Parts of a predicate -/

/-- Puts a predicate in the place of every test. -/
def bind (part : α → Predicate β) : Predicate α → Predicate β
  | .always => .always
  | .test t => part t
  | .join c p q => .join c (p.bind part) (q.bind part)

/-- The tests of a composed predicate are those of its parts. -/
theorem tests_bind (part : α → Predicate β) (p : Predicate α) :
    (p.bind part).tests = p.tests.flatMap fun t ↦ (part t).tests := by
  induction p with
  | always => rfl
  | test t => simp [bind, tests]
  | join c p q ihp ihq => simp [bind, tests, ihp, ihq]

/-- A part counts as a test that answers with the outcome of the part. -/
theorem eval_bind (part : α → Predicate β) (answer : β → Except ε Bool) (p : Predicate α) :
    (p.bind part).eval answer =
      let course := p.eval fun t ↦ ((part t).eval answer).outcome
      ⟨course.asked.flatMap fun t ↦ ((part t).eval answer).asked, course.outcome⟩ := by
  induction p with
  | always => rfl
  | test t => simp [bind, eval]
  | join c p q ihp ihq =>
    simp only [bind, eval, ihp, ihq]
    cases hp : p.eval fun t ↦ ((part t).eval answer).outcome with
    | mk asked outcome =>
      cases outcome with
      | error e => rfl
      | ok a =>
        simp only
        split
        · cases hq : q.eval fun t ↦ ((part t).eval answer).outcome with
          | mk more second => cases second <;> simp
        · rfl

/-! ### Records -/

/-- The numbers of those parts of a composed predicate that are evaluated on a record, in order. -/
def evaluated (outline : Predicate Nat) (part : Nat → Predicate Test) (r : Record) : List Nat :=
  (outline.eval fun i ↦ (part i).matches? r).asked

/-- What is asked is what the evaluated parts ask, one after the other. -/
theorem asked_bind (outline : Predicate Nat) (part : Nat → Predicate Test) (r : Record) :
    ((outline.bind part).run r).asked =
      (outline.evaluated part r).flatMap fun i ↦ ((part i).run r).asked := by
  simp only [run, evaluated, eval_bind]
  rfl

theorem reads_bind (outline : Predicate Nat) (part : Nat → Predicate Test) (r : Record) :
    (outline.bind part).reads r = (outline.evaluated part r).flatMap fun i ↦ (part i).reads r := by
  simp only [reads, asked_bind, List.map_flatMap]

/-- The outcome is that of the outline on the outcomes of the parts. -/
theorem matches?_bind (outline : Predicate Nat) (part : Nat → Predicate Test) (r : Record) :
    (outline.bind part).matches? r = (outline.eval fun i ↦ (part i).matches? r).outcome := by
  simp only [matches?, run, eval_bind]

/-- Where the parts have values, those are evaluated that the outline asks for. -/
theorem evaluated_eq_asked {outline : Predicate Nat} {part : Nat → Predicate Test} {r : Record}
    {value : Nat → Bool} (h : ∀ i ∈ outline.tests, (part i).matches? r = .ok (value i)) :
    outline.evaluated part r = outline.asked value := by
  rw [evaluated, eval_of_values h]

/-- Where the parts have values, the truth table of the outline gives the value of the whole. -/
theorem matches?_bind_of_values {outline : Predicate Nat} {part : Nat → Predicate Test}
    {r : Record} {value : Nat → Bool}
    (h : ∀ i ∈ outline.tests, (part i).matches? r = .ok (value i)) :
    (outline.bind part).matches? r = .ok (outline.value value) := by
  rw [matches?_bind, eval_of_values h]

end Predicate

/-! ### Tests of rules -/

/-- Whether a test has an answer for a record and the answer is yes. -/
def Test.passes (r : Record) (t : Test) : Bool := (t.answer r).toOption.getD false

/-- The tests of a list of rules, one for each. -/
def Rule.TestsOf (rules : List Rule) (tests : List Test) : Prop :=
  List.Forall₂ (fun rule t ↦ rule.test = .ok t) rules tests

/-- The value of a rule for a record: the answer of its test. -/
def Rule.value? (r : Record) (rule : Rule) : Option Bool := do
  let t ← rule.test.toOption
  (t.answer r).toOption

namespace Rule

variable {rules : List Rule} {tests : List Test}

theorem value?_eq_some {rule : Rule} {t : Test} {r : Record} {b : Bool} (ht : rule.test = .ok t)
    (hb : t.answer r = .ok b) : rule.value? r = some b := by
  rw [value?, ht]
  exact congrArg Except.toOption hb

/-- Tests are about the fields of their rules. -/
theorem TestsOf.fields (h : TestsOf rules tests) :
    tests.map (·.field) = rules.map (·.field) := by
  induction h with
  | nil => rfl
  | cons ht _ ih => rw [List.map_cons, List.map_cons, ih, (suits_of_test ht).1]

/-- Tests of rules suit their fields. -/
theorem TestsOf.suits (h : TestsOf rules tests) : ∀ t ∈ tests, t.Suits := by
  induction h with
  | nil => simp
  | cons ht _ ih =>
    intro u hu
    rcases List.mem_cons.mp hu with rfl | hu
    · exact (suits_of_test ht).2
    · exact ih u hu

/-- On a record that fits the fields of the rules, every test has an answer. -/
theorem TestsOf.answer_eq_ok (h : TestsOf rules tests) {r : Record}
    (hr : r.FitsOn (Field.inOrder (rules.map (·.field)))) :
    ∀ t ∈ tests, t.answer r = .ok (t.passes r) := by
  intro t ht
  have hfield : t.field ∈ Field.inOrder (rules.map (·.field)) := by
    rw [Field.mem_inOrder, ← h.fields]
    exact List.mem_map_of_mem ht
  obtain ⟨b, hb⟩ := Test.answer_eq_ok (r := r) (h.suits t ht) fun f hf ↦ by
    rw [List.mem_singleton.mp hf]
    exact hr _ hfield
  rw [Test.passes, hb]
  rfl

end Rule

namespace Predicate

variable {p : Predicate Test} {r : Record} {rules : List Rule}

/-- On a record that fits the rules, their predicate has its truth-table value. -/
theorem run_of_fits (h : Rule.TestsOf rules p.tests)
    (hr : r.FitsOn (Field.inOrder (rules.map (·.field)))) :
    p.run r = ⟨p.asked (Test.passes r), .ok (p.value (Test.passes r))⟩ :=
  eval_of_values (h.answer_eq_ok hr)

theorem matches?_of_fits (h : Rule.TestsOf rules p.tests)
    (hr : r.FitsOn (Field.inOrder (rules.map (·.field)))) :
    p.matches? r = .ok (p.value (Test.passes r)) := by
  rw [matches?, run_of_fits h hr]

end Predicate

namespace Predicate

/-! ### Parts with values -/

/-- How a predicate is evaluated on a record part by part. The numbers of the parts that are
evaluated are listed in `order`. -/
structure Course (p : Predicate Test) (r : Record) (outline : Predicate Nat)
    (part : Nat → Predicate Test) (value : Nat → Bool) (order : List Nat) : Prop where
  composed : p = outline.bind part
  part_value : ∀ i ∈ outline.tests, (part i).matches? r = .ok (value i)
  outcome : p.matches? r = .ok (outline.value value)
  evaluated : outline.evaluated part r = order
  /-- Parts are evaluated in their order, each at most once. -/
  increasing : order.Pairwise (· < ·)
  /-- What is asked is what the evaluated parts ask, one after the other. -/
  asked : (p.run r).asked = order.flatMap fun i ↦ ((part i).run r).asked
  reads : p.reads r = order.flatMap fun i ↦ (part i).reads r

variable {outline : Predicate Nat} {part : Nat → Predicate Test} {r : Record}

/-- Where all tests have answers, a part has its truth-table value. -/
theorem matches?_part (h : ∀ t ∈ (outline.bind part).tests, t.answer r = .ok (t.passes r)) :
    ∀ i ∈ outline.tests, (part i).matches? r = .ok ((part i).value (Test.passes r)) := by
  intro i hi
  have hanswers : ∀ t ∈ (part i).tests, t.answer r = .ok (t.passes r) := by
    intro t ht
    apply h t
    rw [tests_bind]
    exact List.mem_flatMap_of_mem hi ht
  rw [matches?, run, eval_of_values hanswers]

/-- Only parts that stand in the outline are evaluated. -/
theorem Course.mem_tests {p : Predicate Test} {value : Nat → Bool} {order : List Nat}
    (h : p.Course r outline part value order) : ∀ i ∈ order, i ∈ outline.tests := by
  intro i hi
  rw [← h.evaluated, evaluated_eq_asked h.part_value] at hi
  exact (asked_sublist_tests value outline).subset hi

/-- Where all tests have answers, the outline decides which parts are evaluated. -/
theorem course_of_answers {n : Nat} (hn : outline.tests = List.range n)
    (h : ∀ t ∈ (outline.bind part).tests, t.answer r = .ok (t.passes r)) :
    (outline.bind part).Course r outline part (fun i ↦ (part i).value (Test.passes r))
      (outline.asked fun i ↦ (part i).value (Test.passes r)) := by
  have hvalue := matches?_part h
  have hevaluated := evaluated_eq_asked hvalue
  refine ⟨rfl, hvalue, matches?_bind_of_values hvalue, hevaluated, ?_, ?_, ?_⟩
  · have hsub := asked_sublist_tests (fun i ↦ (part i).value (Test.passes r)) outline
    rw [hn] at hsub
    exact List.Pairwise.sublist hsub List.pairwise_lt_range
  · rw [asked_bind, hevaluated]
  · rw [reads_bind, hevaluated]

end Predicate

/-! ### Samples -/

/-- The rule that the value of a field is one. -/
def Rule.isOne (f : Field) : Rule := ⟨f, .equal, .number (.integer 1)⟩

/-- A unit without employees, of which the year of the count and the register are known. -/
def StatisticalUnit.unstaffed : StatisticalUnit where
  attribute?
    | .employees => some ⟨.integer 0, rfl⟩
    | .employeesYear => some ⟨.integer 1, rfl⟩
    | .regId => some ⟨.integer 1, rfl⟩
    | _ => none

end SamplingFrame
