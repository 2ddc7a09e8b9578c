import SamplingFrame.Proofs.Expression.Predicate
import SamplingFrame.Proofs.Group.Predicate
import SamplingFrame.Scan

/-!
# What is read of a record

A predicate reads the fields of its rules, and how its evaluation goes on depends on nothing but
what was read so far. So two records that agree on what was read of one of them cannot be told
apart, and it is enough to load the fields that a frame declares to need.
-/

namespace SamplingFrame

/-- A record of which only some fields are loaded. -/
def Record.restrict (r : Record) (fields : List Field) : Record :=
  fun f ↦ if f ∈ fields then r f else none

theorem Record.restrict_of_mem (r : Record) {fields : List Field} {f : Field} (h : f ∈ fields) :
    r.restrict fields f = r f :=
  if_pos h

/-- A test looks at its own field only. -/
theorem Test.answer_congr {t : Test} {r r' : Record} (h : r' t.field = r t.field) :
    t.answer r' = t.answer r := by
  rw [answer, answer, h]

namespace Predicate

variable {p : Predicate Test} {rules : List Rule} {declared : List Field}

/-- Records that agree on what is read of one of them have the same course. -/
theorem run_congr {r r' : Record} (h : ∀ f ∈ p.reads r, r' f = r f) : p.run r' = p.run r :=
  eval_congr fun t ht ↦ Test.answer_congr (h t.field (List.mem_map_of_mem ht))

theorem reads_sublist_of_testsOf (h : Rule.TestsOf rules p.tests) (r : Record) :
    (p.reads r).Sublist (rules.map (·.field)) := by
  rw [← h.fields]
  exact (asked_eval_sublist (Test.answer r) p).map _

/-- A predicate reads what its rules are about, as far as that is declared, and depends on nothing
else of a record. -/
structure ReadsOnly (p : Predicate Test) (rules : List Rule) (declared : List Field) : Prop where
  /-- The field of each rule is read at most once, and in the order of the rules. -/
  sublist : ∀ r, (p.reads r).Sublist (rules.map (·.field))
  mem_declared : ∀ r, ∀ f ∈ p.reads r, f ∈ declared
  /-- Records that agree on what is read of one of them cannot be told apart. -/
  congr : ∀ r r', (∀ f ∈ p.reads r, r' f = r f) →
    p.matches? r' = p.matches? r ∧ p.reads r' = p.reads r
  /-- Nothing changes if only the declared fields are loaded. -/
  restrict : ∀ r, p.matches? (r.restrict declared) = p.matches? r ∧
    p.reads (r.restrict declared) = p.reads r

theorem readsOnly_of_testsOf (h : Rule.TestsOf rules p.tests) :
    p.ReadsOnly rules (Field.inOrder (rules.map (·.field))) := by
  have hmem (r : Record) : ∀ f ∈ p.reads r, f ∈ Field.inOrder (rules.map (·.field)) :=
    fun f hf ↦ Field.mem_inOrder.mpr ((reads_sublist_of_testsOf h r).subset hf)
  have hcongr (r r' : Record) (hr : ∀ f ∈ p.reads r, r' f = r f) :
      p.matches? r' = p.matches? r ∧ p.reads r' = p.reads r := by
    rw [matches?, matches?, reads, reads, run_congr hr]
    exact ⟨rfl, rfl⟩
  refine ⟨reads_sublist_of_testsOf h, hmem, hcongr, fun r ↦ hcongr r _ fun f hf ↦ ?_⟩
  exact r.restrict_of_mem (hmem r f hf)

end Predicate

/-- The predicates of groups, expressions and frames read only the fields of their rules, and a scan
of records of which only the required fields are loaded selects the same ones. -/
theorem readsOnly_leaves :
    (∀ (g : Group) p, g.predicate = .ok p → p.ReadsOnly g.leaves g.fields) ∧
    (∀ (e : Expression) p, e.predicate = .ok p → p.ReadsOnly e.leaves e.fields) ∧
    ∀ (frame : Frame) version compiled, frame.compile version = .ok compiled →
      compiled.predicate.ReadsOnly frame.selection.leaves compiled.required ∧
      Scan.run (fun r : Record ↦ compiled.predicate.matches? (r.restrict compiled.required)) =
        Scan.run compiled.predicate.matches? := by
  have hgroup (g : Group) (p : Predicate Test) (h : g.predicate = .ok p) :
      p.ReadsOnly g.leaves g.fields :=
    Predicate.readsOnly_of_testsOf (Group.testsOf_leaves h)
  refine ⟨hgroup, fun e p h ↦ ?_, fun frame version compiled h ↦ ?_⟩
  · exact Predicate.readsOnly_of_testsOf (Expression.testsOf_leaves h)
  · unfold Frame.compile at h
    split at h
    · cases h
    · obtain ⟨p, hp, h⟩ := bind_eq_ok.mp h
      cases h
      have hreads := hgroup frame.selection p hp
      refine ⟨hreads, congrArg Scan.run (funext fun r ↦ ?_)⟩
      exact (hreads.restrict r).1

/-- A record that differs from the sample unit in the year of its turnover, and is no unit. -/
def Record.misdated : Record := fun f ↦
  if f = .turnoverYear then some (.text "unknown") else StatisticalUnit.unstaffed.record f

theorem readsOnly_leaves_mixed :
    ∃ p, Expression.mixed.predicate = .ok p ∧
      p.reads (StatisticalUnit.record .unstaffed) =
        [.employees, .employeesYear, .regId, .parentId] ∧
      p.ReadsOnly Expression.mixed.leaves Expression.mixed.fields ∧
      p.matches? .misdated = p.matches? (StatisticalUnit.record .unstaffed) ∧
      p.reads .misdated = p.reads (StatisticalUnit.record .unstaffed) := by
  have hreads := readsOnly_leaves.2.1 Expression.mixed _ rfl
  refine ⟨_, rfl, rfl, hreads, hreads.congr _ _ fun f hf ↦ ?_⟩
  exact if_neg fun h ↦ absurd (h ▸ hf) (by decide)

end SamplingFrame
