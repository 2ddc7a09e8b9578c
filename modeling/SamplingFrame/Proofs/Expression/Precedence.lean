import SamplingFrame.Proofs.Expression.Predicate

/-!
# Precedence in chains

Operator-precedence evaluation keeps a stack of values and a stack of pending connectives. It
agrees with the predicate of an expression: a chain has the value that the two stacks compute from
the values of its clauses, and that is also what its runs say together.
-/

namespace SamplingFrame

/-- How tightly a connective binds, as a number. -/
def Connective.precedence : Connective → Nat
  | .and | .andNot => 2
  | .or | .orNot => 1

theorem Connective.precedence_of_tight {c : Connective} (h : c.isTight = true) :
    c.precedence = 2 := by
  cases c <;> simp_all [isTight, precedence]

theorem Connective.precedence_of_loose {c : Connective} (h : c.isTight = false) :
    c.precedence = 1 := by
  cases c <;> simp_all [isTight, precedence]

/-! ### Two stacks -/

namespace ShuntingYard

/-- The pending connectives and the values that wait for them; the top of a stack stands first. -/
abbrev Stacks := List Connective × List Bool

/-- Applies a connective to the two topmost values. -/
def reduce (c : Connective) : List Bool → Option (List Bool)
  | right :: left :: values => some (c.apply left right :: values)
  | _ => none

/-- Applies the pending connectives that bind no looser than the next one. -/
def reduceBefore (next : Connective) : List Connective → List Bool → Option Stacks
  | [], values => some ([], values)
  | top :: pending, values =>
    if top.precedence < next.precedence then some (top :: pending, values)
    else do reduceBefore next pending (← reduce top values)

/-- Reads a connective and the value after it. -/
def shift (s : Stacks) (x : Connective × Bool) : Option Stacks := do
  let (pending, values) ← reduceBefore x.1 s.1 s.2
  return (x.1 :: pending, x.2 :: values)

/-- Applies all pending connectives. -/
def drain : List Connective → List Bool → Option (List Bool)
  | [], values => some values
  | top :: pending, values => do drain pending (← reduce top values)

/-- The value of a chain, from the values of its clauses and the connectives between them. -/
def evaluate : List Bool → List Connective → Option Bool
  | [], _ => none
  | value :: values, connectives => do
    let (pending, rest) ← (connectives.zip values).foldlM shift ([], [value])
    match ← drain pending rest with
    | [result] => some result
    | _ => none

/-- What the stacks hold in the middle of a chain: `before` is the value of the finished runs,
joined by `opener` with the current run, whose value so far is `run`. The last tight connective of
the run may still be pending. -/
inductive Holds (opener : Option Connective) (before : Bool) : Bool → Stacks → Prop
  | closed (run : Bool) :
    Holds opener before run (opener.toList, run :: opener.toList.map fun _ ↦ before)
  | pending (c : Connective) (left right : Bool) (h : c.isTight = true) :
    Holds opener before (c.apply left right)
      (c :: opener.toList, right :: left :: opener.toList.map fun _ ↦ before)

variable {opener : Option Connective} {before run : Bool} {s : Stacks} {c : Connective}

/-- The value of what has been read, once the current run is closed. -/
def closeRun (opener : Option Connective) (before run : Bool) : Bool :=
  opener.elim run fun c ↦ c.apply before run

theorem drain_of_holds (h : Holds opener before run s) :
    drain s.1 s.2 = some [closeRun opener before run] := by
  cases h with
  | closed => cases opener <;> rfl
  | pending c left right => cases opener <;> rfl

/-- A tight connective leaves the finished runs alone. -/
theorem shift_tight (value : Bool) (hloose : ∀ o ∈ opener, o.isTight = false)
    (hc : c.isTight = true) (h : Holds opener before run s) :
    ∃ s', shift s (c, value) = some s' ∧ Holds opener before (c.apply run value) s' := by
  refine ⟨_, ?_, .pending c run value hc⟩
  cases h with
  | closed =>
    cases opener with
    | none => rfl
    | some o =>
      have ho := Connective.precedence_of_loose (hloose o rfl)
      simp [shift, reduceBefore, ho, Connective.precedence_of_tight hc]
  | pending d left right hd =>
    cases opener with
    | none =>
      simp [shift, reduceBefore, reduce, Connective.precedence_of_tight hc,
        Connective.precedence_of_tight hd]
    | some o =>
      have ho := Connective.precedence_of_loose (hloose o rfl)
      simp [shift, reduceBefore, reduce, ho, Connective.precedence_of_tight hc,
        Connective.precedence_of_tight hd]

/-- A loose connective closes the current run and opens the next one. -/
theorem shift_loose (value : Bool) (hloose : ∀ o ∈ opener, o.isTight = false)
    (hc : c.isTight = false) (h : Holds opener before run s) :
    ∃ s', shift s (c, value) = some s' ∧
      Holds (some c) (closeRun opener before run) value s' := by
  refine ⟨_, ?_, .closed value⟩
  have hp := Connective.precedence_of_loose hc
  cases h with
  | closed =>
    cases opener with
    | none => rfl
    | some o =>
      have ho := Connective.precedence_of_loose (hloose o rfl)
      simp [shift, reduceBefore, reduce, ho, hp, closeRun]
  | pending d left right hd =>
    have hd := Connective.precedence_of_tight hd
    cases opener with
    | none => simp [shift, reduceBefore, reduce, hp, hd, closeRun]
    | some o =>
      have ho := Connective.precedence_of_loose (hloose o rfl)
      simp [shift, reduceBefore, reduce, ho, hp, hd, closeRun]

/-- From any state in the middle of a chain, the stacks end with the value that the rest of the
chain gives to its runs. -/
theorem drain_foldlM_shift (tail : List (Connective × Bool))
    (hloose : ∀ o ∈ opener, o.isTight = false) (h : Holds opener before run s) :
    ∃ s', tail.foldlM shift s = some s' ∧ drain s'.1 s'.2 =
      some [Term.foldLeft Connective.apply before
        ((Term.runs (⟨run, opener⟩ :: Term.laterTerms tail)).map (Term.map Term.fold))] := by
  -- Each pair keeps `Holds`: a tight connective within the current run, a loose one across runs.
  induction tail generalizing opener before run s with
  | nil =>
    refine ⟨s, rfl, ?_⟩
    rw [drain_of_holds h]
    cases opener <;>
      simp [Term.laterTerms, Term.runs, Term.map, Term.fold, Term.foldLeft, Term.combineNext,
        Term.first, closeRun]
  | cons x tail ih =>
    obtain ⟨c, value⟩ := x
    by_cases hc : c.isTight = true
    · obtain ⟨s', hs', h'⟩ := shift_tight value hloose hc h
      obtain ⟨s'', hs'', hd⟩ := ih hloose h'
      refine ⟨s'', by rw [List.foldlM_cons, hs']; exact hs'', ?_⟩
      rw [hd]
      have hruns := Term.map_foldLeft_runs_of_tight Connective.apply true ⟨run, opener⟩
        (Term.next c value) (Term.laterTerms tail) rfl hc
      exact congrArg (fun rs ↦ some [Term.foldLeft Connective.apply before rs]) hruns.symm
    · have hc : c.isTight = false := by simpa using hc
      obtain ⟨s', hs', h'⟩ := shift_loose value hloose hc h
      obtain ⟨s'', hs'', hd⟩ := ih (by simpa using hc) h'
      refine ⟨s'', by rw [List.foldlM_cons, hs']; exact hs'', ?_⟩
      have hopens : (Term.next c value).opensRun = true := by simp [Term.opensRun, Term.next, hc]
      have hruns : Term.runs (⟨run, opener⟩ :: Term.laterTerms ((c, value) :: tail)) =
          ⟨[Term.first run], opener⟩ :: Term.runs (⟨value, some c⟩ :: Term.laterTerms tail) :=
        Term.runs_cons_of_opens hopens
      rw [hd, hruns]
      cases opener <;> rfl

/-- The two stacks compute the value of a chain run by run. -/
theorem evaluate_eq_byRuns {values : List Bool} (hne : values ≠ [])
    (connectives : List Connective) :
    evaluate values connectives =
      some (Term.byRuns Term.fold (Term.assemble values connectives)) := by
  obtain ⟨value, values, rfl⟩ := List.exists_cons_of_ne_nil hne
  have hstart : Holds none true value ([], [value]) := .closed value
  obtain ⟨s, hs, hd⟩ := drain_foldlM_shift (connectives.zip values) (by simp) hstart
  simp only [evaluate, hs, Option.bind_eq_bind, Option.bind_some, hd]
  rfl

end ShuntingYard

/-! ### Values of expressions -/

namespace Expression

variable (chainValue : List Bool → List Connective → Option Bool) (r : Record)

mutual

/-- The value of an expression for a record, where the value of a chain is computed from the values
of its clauses and the connectives between them. -/
def value? : Expression → Option Bool
  | .rule leaf => leaf.value? r
  | .binary left c right => do
    let a ← value? left
    let b ← value? right
    return c.apply a b
  | .chain ts => do
    let us ← clauseValues? ts
    chainValue (us.map (·.node)) (us.filterMap (·.connective))

/-- The clauses of a chain with their values. -/
def clauseValues? : List (Term Expression) → Option (List (Term Bool))
  | [] => some []
  | ⟨e, c⟩ :: ts => do
    let value ← value? e
    let us ← clauseValues? ts
    return ⟨value, c⟩ :: us

end

/-- The value of a chain by its runs: it holds where a run contributes. A run opened by `orNot`
contributes the negation of its conjunction, and `andNot` negates its own clause only. -/
def valueByRuns (values : List Bool) (connectives : List Connective) : Option Bool :=
  some ((Term.runs (Term.assemble values connectives)).any (Term.contribution id))

/-- Whether a chain is given the value of its runs. -/
def FoldsRuns : Prop :=
  ∀ us : List (Term Bool), us ≠ [] → Term.Sequenced us →
    chainValue (us.map (·.node)) (us.filterMap (·.connective)) = some (Term.byRuns Term.fold us)

theorem foldsRuns_shuntingYard : FoldsRuns ShuntingYard.evaluate := by
  intro us hne h
  rw [ShuntingYard.evaluate_eq_byRuns (by simpa using hne), Term.assemble_of_sequenced h]

theorem foldsRuns_valueByRuns : FoldsRuns valueByRuns := by
  intro us hne h
  have hid : us.map (Term.map id) = us := List.map_id us
  rw [valueByRuns, Term.assemble_of_sequenced h, ← Term.byRuns_fold hne h, hid]

variable {chainValue r}

theorem clauseValues?_eq (ts : List (Term Expression)) :
    clauseValues? chainValue r ts = Term.traverse (value? chainValue r) ts := by
  induction ts with
  | nil => rfl
  | cons t ts ih => rw [clauseValues?, ih]; rfl

/-- Where chains are given the values of their runs, an expression is given the value of its
predicate. -/
theorem value?_eq_some (hchain : FoldsRuns chainValue) {e : Expression} {p : Predicate Test}
    (h : e.predicate = .ok p) (hr : ∀ t ∈ p.tests, t.answer r = .ok (t.passes r)) :
    e.value? chainValue r = some (p.value (Test.passes r)) := by
  induction e generalizing p with
  | rule leaf =>
    rw [predicate] at h
    obtain ⟨t, ht, h⟩ := bind_eq_ok.mp h
    cases h
    rw [value?, Rule.value?_eq_some ht (hr t (by simp [Predicate.tests]))]
    rfl
  | binary left c right ihl ihr =>
    rw [predicate] at h
    obtain ⟨p₁, hp₁, h⟩ := bind_eq_ok.mp h
    obtain ⟨p₂, hp₂, h⟩ := bind_eq_ok.mp h
    cases h
    rw [value?, ihl hp₁ fun t ht ↦ hr t (List.mem_append_left _ ht),
      ihr hp₂ fun t ht ↦ hr t (List.mem_append_right _ ht)]
    rfl
  | chain ts ih =>
    obtain ⟨hne, hs, qs, hq, rfl⟩ := predicate_chain_eq_ok_iff.mp h
    have hc := Term.connectives_of_traverse hq
    have hqs : Term.Sequenced qs := Term.sequenced_of_connectives hc hs
    have hqne : qs ≠ [] := by
      rintro rfl
      exact hne (List.map_eq_nil_iff.mp hc.symm)
    have hvalues : Term.traverse (value? chainValue r) ts =
        some (qs.map (Term.map (·.value (Test.passes r)))) := by
      refine Term.traverse_values hq fun t ht q hmem hp ↦ ih t ht hp fun u hu ↦ hr u ?_
      rw [Term.tests_byRuns hqs]
      exact List.mem_flatMap_of_mem hmem hu
    rw [value?, clauseValues?_eq, hvalues,
      Term.byRuns_hom (Predicate.value (Test.passes r)) (Term.value_join (Test.passes r))]
    exact hchain _ (by simpa using hqne) (Term.sequenced_map hqs)

/-- On a record that fits the fields of an expression, its predicate has the value in which the
chains are evaluated with two stacks, at every depth. By their runs they have the same value. -/
theorem outcome_eq_shuntingYard {e : Expression} {p : Predicate Test} (h : e.predicate = .ok p)
    (hr : r.FitsOn e.fields) :
    ∃ b, p.matches? r = .ok b ∧ e.value? ShuntingYard.evaluate r = some b ∧
      e.value? valueByRuns r = some b := by
  have hanswers := (testsOf_leaves h).answer_eq_ok hr
  refine ⟨p.value (Test.passes r), matches?_of_fits h hr, ?_, ?_⟩
  · exact value?_eq_some foldsRuns_shuntingYard h hanswers
  · exact value?_eq_some foldsRuns_valueByRuns h hanswers

/-- In the mixed chain `orNot` negates the conjunction of a pair and a chain, which holds here. -/
theorem outcome_eq_shuntingYard_mixed :
    ∃ p, mixed.predicate = .ok p ∧ (StatisticalUnit.record .unstaffed).FitsOn mixed.fields ∧
      p.matches? (StatisticalUnit.record .unstaffed) = .ok false ∧
      ∃ b, p.matches? (StatisticalUnit.record .unstaffed) = .ok b ∧
        mixed.value? ShuntingYard.evaluate (StatisticalUnit.record .unstaffed) = some b ∧
        mixed.value? valueByRuns (StatisticalUnit.record .unstaffed) = some b := by
  refine ⟨_, rfl, StatisticalUnit.fitsOn _ _, rfl, ?_⟩
  exact outcome_eq_shuntingYard rfl (StatisticalUnit.fitsOn _ _)

end Expression

end SamplingFrame
