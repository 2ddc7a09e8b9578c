import SamplingFrame.Proofs.Expression.Predicate

/-!
# The checks of an expression

An expression is gone through in the order in which it is written. Of every rule it is checked
whether it has a test, of every chain whether it has clauses, and of every clause, before its
contents, whether it continues the sequence. The fault of an expression is that of the first check
that fails. What is left to do after that, the joining of runs, cannot fail.
-/

namespace SamplingFrame

namespace Expression

/-- Something that is looked at in an expression. -/
inductive Check where
  /-- Whether a rule has a test. -/
  | rule (rule : Rule)
  /-- Whether a chain has clauses. -/
  | filled (clauses : List (Term Expression))
  /-- Whether the first clause of a chain has no connective. -/
  | leading (connective : Option Connective)
  /-- Whether the later clause at an index of a chain has a connective. -/
  | later (index : Nat) (connective : Option Connective)

/-- What is wrong if a check fails. -/
def Check.fault? : Check → Option Fault
  | .rule r => faultOf r.test
  | .filled [] => some .emptyChain
  | .leading (some _) => some (.leadingConnective .chain)
  | .later i none => some (.missingConnective .chain i)
  | .filled (_ :: _) | .leading none | .later _ (some _) => none

mutual

/-- The checks of an expression. -/
def checks : Expression → List Check
  | .rule r => [.rule r]
  | .binary left _ right => checks left ++ checks right
  | .chain [] => [.filled []]
  | .chain (⟨e, c⟩ :: ts) =>
    .filled (⟨e, c⟩ :: ts) :: .leading c :: (checks e ++ laterChecks 1 ts)

/-- The checks of the later clauses of a chain, the first of which has the given index. -/
def laterChecks : Nat → List (Term Expression) → List Check
  | _, [] => []
  | i, ⟨e, c⟩ :: ts => .later i c :: (checks e ++ laterChecks (i + 1) ts)

end

/-- A check that fails with a fault where all checks before it pass. -/
def FailsFirst (e : Expression) (check : Check) (fault : Fault) : Prop :=
  ∃ before after, e.checks = before ++ check :: after ∧
    (∀ c ∈ before, c.fault? = none) ∧ check.fault? = some fault

/-! ### The first fault -/

/-- The later clauses of a chain have predicates up to the first check that fails. -/
theorem faultOf_clauses {ts : List (Term Expression)}
    (hnode : ∀ t ∈ ts, faultOf t.node.predicate = t.node.checks.findSome? Check.fault?) (i : Nat) :
    faultOf (clauses i ts) = (laterChecks i ts).findSome? Check.fault? := by
  induction ts generalizing i with
  | nil => rw [clauses, laterChecks]; rfl
  | cons t ts ih =>
    have hts := ih (fun u hu ↦ hnode u (List.mem_cons_of_mem t hu)) (i + 1)
    have ht := hnode t List.mem_cons_self
    obtain ⟨e, _ | c⟩ := t
    · rw [clauses, laterChecks]
      rfl
    · have hpass : (Check.later i (some c)).fault? = none := rfl
      rw [clauses, laterChecks, List.findSome?_cons, hpass, List.findSome?_append, ← ht, ← hts]
      exact faultOf_bind fun p _ ↦ faultOf_map _ _

/-- The fault of an expression is that of the first of its checks that fails. -/
theorem faultOf_predicate (e : Expression) :
    faultOf e.predicate = e.checks.findSome? Check.fault? := by
  induction e with
  | rule r =>
    have hsingle : (checks (.rule r)).findSome? Check.fault? = faultOf r.test := by
      rw [checks, List.findSome?_cons]
      cases h : (Check.rule r).fault? with
      | none => exact h.symm
      | some fault => exact h.symm
    rw [hsingle, predicate]
    exact faultOf_map _ _
  | binary left c right hleft hright =>
    rw [predicate, checks, List.findSome?_append, ← hleft, ← hright]
    exact faultOf_bind fun p _ ↦ faultOf_map _ _
  | chain ts ih =>
    obtain _ | ⟨⟨e, _ | c⟩, ts⟩ := ts
    · rw [predicate, checks]
      rfl
    · have hhead := ih ⟨e, none⟩ List.mem_cons_self
      have htail := faultOf_clauses (fun t ht ↦ ih t (List.mem_cons_of_mem _ ht)) 1
      have hfilled : (Check.filled (⟨e, none⟩ :: ts)).fault? = none := rfl
      have hleading : (Check.leading none).fault? = none := rfl
      rw [predicate, checks, List.findSome?_cons, hfilled, List.findSome?_cons, hleading,
        List.findSome?_append, ← hhead, ← htail]
      exact faultOf_bind fun p _ ↦ faultOf_map _ _
    · rw [predicate, checks]
      rfl

/-! ### Two passes over a chain -/

/-- A run of clauses that has been merged, and the loose connective that follows it, if one does. -/
structure Run where
  predicate : Predicate Test
  boundary : Option Connective

/-- The first pass: merges the clauses of each run. -/
def mergeRuns (current : Predicate Test) : List (Connective × Predicate Test) → List Run
  | [] => [⟨current, none⟩]
  | (c, p) :: rest =>
    if c.isTight then mergeRuns (.join c current p) rest
    else ⟨current, some c⟩ :: mergeRuns p rest

/-- Folds the runs from an index on over what stands before them, where `pending` is the boundary
that was met last. -/
def foldFrom (before : Predicate Test) (pending : Option Connective) :
    Nat → List Run → Except Fault (Predicate Test)
  | _, [] => .ok before
  | i, run :: runs =>
    match pending with
    | none => .error (.missingConnective .chain i)
    | some c => foldFrom (.join c before run.predicate) run.boundary (i + 1) runs

/-- The second pass: folds the runs at their boundaries. It fails if there is no run, or if a run
follows another one without a boundary. -/
def foldRuns : List Run → Except Fault (Predicate Test)
  | [] => .error .emptyChain
  | run :: runs => foldFrom run.predicate run.boundary 1 runs

/-- Runs with the loose connectives between them as boundaries: there is at least one run, and only
the last one has no boundary. -/
def bounded (first : Predicate Test) : List (Connective × Predicate Test) → List Run
  | [] => [⟨first, none⟩]
  | (c, p) :: runs => ⟨first, some c⟩ :: bounded p runs

/-- The first pass gives runs with a boundary between any two of them. -/
theorem mergeRuns_eq_bounded (head : Predicate Test) (tail : List (Connective × Predicate Test)) :
    mergeRuns head tail = bounded (cutRuns head tail).1 (cutRuns head tail).2 := by
  induction tail generalizing head with
  | nil => rfl
  | cons x rest ih =>
    obtain ⟨c, p⟩ := x
    rw [mergeRuns, cutRuns]
    by_cases hc : c.isTight = true
    · rw [if_pos hc, if_pos hc, ih]
    · rw [if_neg hc, if_neg hc, ih]
      rfl

/-- Where a boundary is pending and only the last run has none, folding goes through. -/
theorem foldFrom_bounded (before p : Predicate Test) (c : Connective) (i : Nat)
    (runs : List (Connective × Predicate Test)) :
    foldFrom before (some c) i (bounded p runs) = .ok (joinRuns (.join c before p) runs) := by
  induction runs generalizing before p c i with
  | nil => rfl
  | cons x runs ih =>
    obtain ⟨d, q⟩ := x
    exact ih (.join c before p) q d (i + 1)

/-- The second pass never fails after the first one, and gives the predicate of the chain. -/
theorem foldRuns_mergeRuns (head : Predicate Test) (tail : List (Connective × Predicate Test)) :
    foldRuns (mergeRuns head tail) = .ok (joinChain head tail) := by
  rw [mergeRuns_eq_bounded, joinChain]
  obtain ⟨first, runs⟩ := cutRuns head tail
  cases runs with
  | nil => rfl
  | cons x runs =>
    obtain ⟨c, p⟩ := x
    exact foldFrom_bounded first p c 1 runs

/-! ### Faults -/

variable {e : Expression} {fault : Fault}

theorem predicate_eq_error_iff :
    e.predicate = .error fault ↔ ∃ check, e.FailsFirst check fault :=
  eq_error_iff_of_faultOf e.faultOf_predicate

/-- An expression has a predicate exactly if all its checks pass, and has the fault of the first
check that fails otherwise. The predicate of a chain is what the two passes over its clauses give,
and of these the second never fails: no fault comes from anything but the checks. -/
theorem predicate_reports_first_fault (e : Expression) :
    ((∃ p, e.predicate = .ok p) ↔ ∀ check ∈ e.checks, check.fault? = none) ∧
    (∀ fault, e.predicate = .error fault ↔ ∃ check, e.FailsFirst check fault) ∧
    Place.text .chain = "clauses" ∧
    (∀ first later, e = .chain (⟨first, none⟩ :: later) → e.predicate = do
      let head ← first.predicate
      let tail ← clauses 1 later
      foldRuns (mergeRuns head tail)) ∧
    ∀ head tail, ∃ p, foldRuns (mergeRuns head tail) = .ok p := by
  refine ⟨?_, fun fault ↦ predicate_eq_error_iff, rfl, ?_, ?_⟩
  · rw [← faultOf_eq_none, faultOf_predicate, List.findSome?_eq_none_iff]
  · rintro first later rfl
    simp only [predicate, foldRuns_mergeRuns]
    rfl
  · intro head tail
    exact ⟨_, foldRuns_mergeRuns head tail⟩

/-- A chain in which the last clause lacks its connective, and before it stands a pair of which the
second part is a chain without clauses. -/
def unfilled : Expression :=
  .chain [.first (.rule (.isOne .employees)),
    .next .orNot (.binary (.rule (.isOne .regId)) .or (.chain [])),
    .first (.rule (.isOne .parentId))]

theorem predicate_reports_first_fault_unfilled :
    unfilled.predicate = .error .emptyChain ∧
      ∃ check, unfilled.FailsFirst check .emptyChain := by
  have herror : unfilled.predicate = .error .emptyChain := rfl
  exact ⟨herror, ((predicate_reports_first_fault unfilled).2.1 _).mp herror⟩

end Expression

end SamplingFrame
