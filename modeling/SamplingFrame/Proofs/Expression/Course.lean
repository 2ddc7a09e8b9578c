import SamplingFrame.Proofs.Expression.Predicate

/-!
# The evaluation of a chain

The clauses of a chain are evaluated in their order. Once a run contributes, the runs after it are
skipped, and once a clause is not satisfied, so is the rest of its run.
-/

namespace SamplingFrame

namespace Term

variable {α : Type}

/-- The predicate of a chain in which the clause of number `i` is the test `i`. -/
def chainOutline (ts : List (Term α)) : Predicate Nat :=
  byRuns join ((numbered ts).map (map .test))

/-- The outline of a chain has one test for each clause. -/
theorem tests_chainOutline {ts : List (Term α)} (h : Sequenced ts) :
    (chainOutline ts).tests = List.range ts.length := by
  rw [chainOutline, tests_byRuns (sequenced_map (sequenced_numbered h)), List.flatMap_map,
    ← nodes_numbered, List.map_eq_flatMap]
  rfl

/-- The predicate of a chain is its outline with a part for each clause. -/
theorem bind_chainOutline {β : Type} (part : Nat → Predicate β) (ts : List (Term α)) :
    (chainOutline ts).bind part = byRuns join ((numbered ts).map (map part)) := by
  rw [chainOutline, byRuns_hom (Predicate.bind part) (bind_join part), List.map_map]
  rfl

/-- The value of the outline of a chain, by the contributions of its runs. -/
theorem value_chainOutline (value : Nat → Bool) {ts : List (Term α)} (hne : ts ≠ [])
    (h : Sequenced ts) :
    (chainOutline ts).value value = (runs (numbered ts)).any (contribution value) := by
  have hn : numbered ts ≠ [] := by simpa [numbered] using hne
  rw [chainOutline, byRuns_hom (Predicate.value value) (value_join value), List.map_map,
    ← byRuns_fold hn (sequenced_numbered h)]
  rfl

/-- Whether the clause of number `i` can still matter: no run before its own contributes, and all
clauses before it in its run are satisfied. -/
def Needed (value : Nat → Bool) (ts : List (Term α)) (i : Nat) : Prop :=
  ∃ earlier run later, runs (numbered ts) = earlier ++ run :: later ∧
    (∀ e ∈ earlier, contribution value e = false) ∧
    ∃ before t after, run.node = before ++ t :: after ∧ t.node = i ∧
      ∀ u ∈ before, satisfied value u = true

theorem mem_asked_chainOutline {value : Nat → Bool} {ts : List (Term α)} (h : Sequenced ts)
    {i : Nat} : i ∈ (chainOutline ts).asked value ↔ Needed value ts i := by
  have hjoin : map join ∘ map (List.map (map Predicate.test)) =
      map fun us : List (Term Nat) ↦ join (us.map (map .test)) := rfl
  rw [chainOutline, byRuns, runs_map, List.map_map, hjoin,
    mem_asked_of_isCut (isCut_runs (sequenced_numbered h))]
  rfl

end Term

namespace Expression

/-- How the predicate of a chain is evaluated on a record, clause by clause. -/
structure ChainCourse (ts : List (Term Expression)) (p : Predicate Test) (r : Record)
    (part : Nat → Predicate Test) (value : Nat → Bool) (order : List Nat) : Prop
    extends p.Course r (Term.chainOutline ts) part value order where
  sequenced : Term.Sequenced ts
  part_eq : ∀ i t, ts[i]? = some t →
    t.node.predicate = .ok (part i) ∧ (part i).matches? r = .ok (value i)
  /-- The chain holds where one of its runs contributes. -/
  any_run : p.matches? r =
    .ok ((Term.runs (Term.numbered ts)).any (Term.contribution value))
  lt_length : ∀ i ∈ order, i < ts.length
  /-- Those clauses are evaluated that can still matter. -/
  mem_order_iff : ∀ i, i ∈ order ↔ Term.Needed value ts i

/-- On a record that fits the fields of a chain, exactly those clauses are evaluated whose run no
earlier run has made superfluous, and before which all clauses of their run are satisfied. -/
theorem exists_course_of_clauses {ts : List (Term Expression)} {p : Predicate Test} {r : Record}
    (h : (chain ts).predicate = .ok p) (hr : r.FitsOn (chain ts).fields) :
    ∃ part value order, ChainCourse ts p r part value order := by
  obtain ⟨hne, hs, qs, hqs, hp⟩ := predicate_chain_eq_ok_iff.mp h
  obtain ⟨part, hpart, rfl⟩ := Term.exists_parts hqs
  rw [← Term.bind_chainOutline] at hp
  subst hp
  have htests := Term.tests_chainOutline hs
  have hcourse := Predicate.course_of_answers htests ((testsOf_leaves h).answer_eq_ok hr)
  refine ⟨part, _, _, hcourse, hs, ?_, ?_, ?_, ?_⟩
  · intro i t ht
    obtain ⟨hi, -⟩ := List.getElem?_eq_some_iff.mp ht
    exact ⟨hpart i t ht, hcourse.part_value i (by simpa [htests] using hi)⟩
  · rw [← Term.value_chainOutline _ hne hs]
    exact hcourse.outcome
  · intro i hi
    rw [← List.mem_range, ← htests]
    exact hcourse.mem_tests i hi
  · intro i
    exact Term.mem_asked_chainOutline hs

/-- The clauses of a chain in which, on a unit without employees, the rest of a run is skipped and
later the rest of the runs. -/
def interrupted : List (Term Expression) :=
  [.first (.rule (.isOne .employees)), .next .and (.rule (.isOne .employeesYear)),
    .next .orNot (.rule (.isOne .regId)), .next .andNot (.rule (.isOne .turnoverYear)),
    .next .or (.binary (.rule (.isOne .employeesYear)) .or (.rule (.isOne .parentId))),
    .next .or (.rule (.isOne .parentId))]

theorem exists_course_of_clauses_interrupted :
    ∃ p, (chain interrupted).predicate = .ok p ∧
      (StatisticalUnit.record .unstaffed).FitsOn (chain interrupted).fields ∧
      p.reads (StatisticalUnit.record .unstaffed) =
        [.employees, .regId, .turnoverYear, .employeesYear] ∧
      ∃ part value order,
        ChainCourse interrupted p (StatisticalUnit.record .unstaffed) part value order := by
  refine ⟨_, rfl, StatisticalUnit.fitsOn _ _, rfl, ?_⟩
  exact exists_course_of_clauses rfl (StatisticalUnit.fitsOn _ _)

end Expression

end SamplingFrame
