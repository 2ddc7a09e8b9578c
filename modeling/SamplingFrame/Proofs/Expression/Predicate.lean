import SamplingFrame.Proofs.Runs

/-!
# The clauses of an expression

An expression has a predicate exactly if its chains are in sequence and its rules have tests. The
tests of the predicate are those of the rules, in the order in which the rules are written.
-/

namespace SamplingFrame

namespace Expression

/-- Induction over an expression, in which a chain comes with the fact for all its clauses. -/
@[elab_as_elim, induction_eliminator]
theorem induct {motive : Expression → Prop} (rule : ∀ r, motive (.rule r))
    (binary : ∀ left c right, motive left → motive right → motive (.binary left c right))
    (chain : ∀ ts, (∀ t ∈ ts, motive t.node) → motive (.chain ts)) (e : Expression) : motive e := by
  refine @Expression.rec motive (fun ts ↦ ∀ t ∈ ts, motive t.node) (fun t ↦ motive t.node)
    rule binary chain ?_ ?_ ?_ e
  · simp
  · intro t ts ht hts u hu
    rcases List.mem_cons.mp hu with rfl | hu
    · exact ht
    · exact hts u hu
  · exact fun e c he ↦ he

/-! ### Chains -/

theorem connectives_of_clauses {i : Nat} {ts : List (Term Expression)}
    {tail : List (Connective × Predicate Test)} (h : clauses i ts = .ok tail) :
    ∀ t ∈ ts, t.connective.isSome = true := by
  induction ts generalizing i tail with
  | nil => simp
  | cons t ts ih =>
    obtain ⟨e, _ | c⟩ := t
    · rw [clauses] at h
      cases h
    · rw [clauses] at h
      obtain ⟨p, -, h⟩ := bind_eq_ok.mp h
      obtain ⟨rest, hrest, -⟩ := bind_eq_ok.mp h
      intro u hu
      rcases List.mem_cons.mp hu with rfl | hu
      · rfl
      · exact ih hrest u hu

/-- Where no connective is missing, the later clauses of a chain are looked at in their order. -/
theorem traverse_later {i : Nat} {ts : List (Term Expression)}
    (h : ∀ t ∈ ts, t.connective.isSome = true) :
    Term.traverse predicate ts = Term.laterTerms <$> clauses i ts := by
  induction ts generalizing i with
  | nil => rw [clauses]; rfl
  | cons t ts ih =>
    have ih := ih (i := i + 1) fun u hu ↦ h u (List.mem_cons_of_mem t hu)
    obtain ⟨e, _ | c⟩ := t
    · simpa using h _ List.mem_cons_self
    · rw [Term.traverse, clauses, ih]
      cases predicate e with
      | error fault => rfl
      | ok p => cases clauses (i + 1) ts <;> rfl

/-- The predicate of a chain that is in sequence. -/
theorem predicate_chain {t : Term Expression} {ts : List (Term Expression)}
    (h : Term.Sequenced (t :: ts)) :
    (chain (t :: ts)).predicate = Term.byRuns Term.join <$> Term.traverse predicate (t :: ts) := by
  obtain ⟨e, c⟩ := t
  obtain ⟨rfl, hs⟩ := h
  rw [predicate, Term.traverse, traverse_later (i := 1) hs]
  cases predicate e with
  | error fault => rfl
  | ok head =>
    cases clauses 1 ts with
    | error fault => rfl
    | ok tail => exact congrArg Except.ok (Term.joinChain_eq_byRuns head tail)

/-- A chain has a predicate exactly if it is in sequence and all its clauses have one. -/
theorem predicate_chain_eq_ok_iff {ts : List (Term Expression)} {p : Predicate Test} :
    (chain ts).predicate = .ok p ↔
      ts ≠ [] ∧ Term.Sequenced ts ∧
        ∃ qs, Term.traverse predicate ts = .ok qs ∧ p = Term.byRuns Term.join qs := by
  constructor
  · intro h
    obtain _ | ⟨⟨e, _ | c⟩, ts⟩ := ts
    · rw [predicate] at h
      cases h
    · have hs : Term.Sequenced (⟨e, none⟩ :: ts) := by
        rw [predicate] at h
        obtain ⟨head, -, h⟩ := bind_eq_ok.mp h
        obtain ⟨tail, htail, -⟩ := bind_eq_ok.mp h
        exact ⟨rfl, connectives_of_clauses htail⟩
      rw [predicate_chain hs] at h
      cases hq : Term.traverse predicate (⟨e, none⟩ :: ts) with
      | error fault => rw [hq] at h; cases h
      | ok qs =>
        rw [hq] at h
        cases h
        exact ⟨by simp, hs, qs, rfl, rfl⟩
    · rw [predicate] at h
      cases h
  · rintro ⟨hne, hs, qs, hq, rfl⟩
    obtain ⟨t, ts, rfl⟩ := List.exists_cons_of_ne_nil hne
    rw [predicate_chain hs, hq]
    rfl

/-! ### Rules -/

theorem leavesOfTerms_eq (ts : List (Term Expression)) :
    leavesOfTerms ts = ts.flatMap (·.node.leaves) := by
  induction ts with
  | nil => rfl
  | cons t ts ih => rw [leavesOfTerms, ih, List.flatMap_cons]

/-- The predicate of an expression has the tests of its rules, in their order. -/
theorem testsOf_leaves {e : Expression} {p : Predicate Test} (h : e.predicate = .ok p) :
    Rule.TestsOf e.leaves p.tests := by
  induction e generalizing p with
  | rule r =>
    rw [predicate] at h
    obtain ⟨t, ht, h⟩ := bind_eq_ok.mp h
    cases h
    exact .cons ht .nil
  | binary left c right ihl ihr =>
    rw [predicate] at h
    obtain ⟨p₁, hp₁, h⟩ := bind_eq_ok.mp h
    obtain ⟨p₂, hp₂, h⟩ := bind_eq_ok.mp h
    cases h
    exact List.rel_append (ihl hp₁) (ihr hp₂)
  | chain ts ih =>
    obtain ⟨-, hs, qs, hq, rfl⟩ := predicate_chain_eq_ok_iff.mp h
    have hqs := Term.sequenced_of_connectives (Term.connectives_of_traverse hq) hs
    rw [leaves, leavesOfTerms_eq, Term.tests_byRuns hqs]
    exact Term.forall₂_of_traverse hq ih

/-- On a record that fits the fields of an expression, its predicate has a value. -/
theorem matches?_of_fits {e : Expression} {p : Predicate Test} {r : Record}
    (h : e.predicate = .ok p) (hr : r.FitsOn e.fields) :
    p.matches? r = .ok (p.value (Test.passes r)) :=
  Predicate.matches?_of_fits (testsOf_leaves h) hr

/-! ### A sample -/

/-- A chain of all three forms, with a pair and a chain inside. -/
def mixed : Expression :=
  .chain [.first (.rule (.isOne .employees)),
    .next .orNot (.binary (.rule (.isOne .employeesYear)) .or (.rule (.isOne .turnoverYear))),
    .next .and (.chain [.first (.rule (.isOne .regId)),
      .next .andNot (.rule (.isOne .parentId))])]

end Expression

end SamplingFrame
