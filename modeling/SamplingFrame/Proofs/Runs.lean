import Mathlib.Data.List.TakeWhile
import SamplingFrame.Expression.Predicate
import SamplingFrame.Proofs.Sequence

/-!
# Runs of a chain

A chain is cut before every loosely joined clause. Each run is folded from left to right, and so
are the values of the runs: the predicate of a chain is a left fold of left folds. A run holds
where all its clauses are satisfied, and a chain holds where one of its runs contributes.
-/

namespace SamplingFrame

namespace Term

variable {α β ε : Type}

/-- Whether a term is joined loosely, and so opens a run. -/
def opensRun (t : Term α) : Bool := t.connective.any (!·.isTight)

/-- Cuts a sequence before every loosely joined term. The node of a run is the list of its terms,
the first without connective; the connective of a run is the one that opened it. -/
def runs : List (Term α) → List (Term (List (Term α)))
  | [] => []
  | t :: ts =>
    ⟨first t.node :: ts.takeWhile (!·.opensRun), t.connective⟩ ::
      runs (ts.dropWhile (!·.opensRun))
termination_by ts => ts.length
decreasing_by
  have := (List.dropWhile_sublist (fun u : Term α ↦ !u.opensRun) (l := ts)).length_le
  simp only [List.length_cons]
  omega

/-- The later terms of a sequence, given as pairs. -/
def laterTerms (tail : List (Connective × α)) : List (Term α) := tail.map fun x ↦ next x.1 x.2

/-- Does the same to every run, and then to the results. -/
def byRuns (f : List (Term α) → α) (ts : List (Term α)) : α := f ((runs ts).map (map f))

/-- A clause is satisfied if it holds or, where it is joined by `andNot`, if it does not. -/
def satisfied (value : α → Bool) (t : Term α) : Bool :=
  value t.node != (t.connective == some .andNot)

/-- What a run contributes: whether all its clauses are satisfied, or the negation of that, where
the run was opened by `orNot`. -/
def contribution (value : α → Bool) (run : Term (List (Term α))) : Bool :=
  run.node.all (satisfied value) != (run.connective == some .orNot)

/-! ### Cutting -/

theorem runs_cons_of_opens {t u : Term α} {us : List (Term α)} (h : u.opensRun = true) :
    runs (t :: u :: us) = ⟨[first t.node], t.connective⟩ :: runs (u :: us) := by
  rw [runs]
  simp [h]

theorem runs_ne_nil {ts : List (Term α)} (h : ts ≠ []) : runs ts ≠ [] := by
  obtain ⟨t, ts, rfl⟩ := List.exists_cons_of_ne_nil h
  rw [runs]
  exact List.cons_ne_nil _ _

theorem runs_append {t : Term α} {us vs : List (Term α)} (hus : ∀ u ∈ us, u.opensRun = false)
    (hvs : ∀ v ∈ vs.head?, v.opensRun = true) :
    runs (t :: (us ++ vs)) = ⟨first t.node :: us, t.connective⟩ :: runs vs := by
  have htake : (us ++ vs).takeWhile (!·.opensRun) = us := by
    rw [List.takeWhile_append_of_pos (by simpa using hus)]
    cases vs with
    | nil => simp
    | cons v vs => simp [hvs v rfl]
  have hdrop : (us ++ vs).dropWhile (!·.opensRun) = vs := by
    rw [List.dropWhile_append_of_pos (by simpa using hus)]
    cases vs with
    | nil => simp
    | cons v vs => simp [hvs v rfl]
  rw [runs, htake, hdrop]

theorem isSome_of_opensRun {t : Term α} (h : t.opensRun = true) : t.connective.isSome = true := by
  cases hc : t.connective with
  | none => simp [opensRun, hc] at h
  | some c => rfl

theorem opensRun_of_head_dropWhile (ts : List (Term α)) :
    ∀ u ∈ (ts.dropWhile (!·.opensRun)).head?, u.opensRun = true := by
  intro u hu
  have hnot := List.head?_dropWhile_not (!·.opensRun) ts
  rw [Option.mem_def.mp hu] at hnot
  simpa using hnot

/-- A tightly joined term can be combined with the opening term of its run beforehand. -/
theorem map_foldLeft_runs_of_tight (combine : Connective → α → α → α) (start : α) (t u : Term α)
    (us : List (Term α)) {c : Connective} (hc : u.connective = some c) (h : c.isTight = true) :
    (runs (t :: u :: us)).map (map (foldLeft combine start)) =
      (runs (⟨combine c t.node u.node, t.connective⟩ :: us)).map
        (map (foldLeft combine start)) := by
  have hu : u.opensRun = false := by simp [opensRun, hc, h]
  rw [runs, runs, List.takeWhile_cons, List.dropWhile_cons, hu]
  simp [map, foldLeft, combineNext, first, hc]

/-- The runs of a chain and their connectives are the ones that are merged into predicates. -/
theorem terms_cutRuns (head : Predicate α) (tail : List (Connective × Predicate α))
    (opener : Option Connective) :
    ⟨(Expression.cutRuns head tail).1, opener⟩ :: laterTerms (Expression.cutRuns head tail).2 =
      (runs (⟨head, opener⟩ :: laterTerms tail)).map (map join) := by
  -- A tight clause is merged into the head at once; only afterwards is its run known to be whole.
  induction tail generalizing head opener with
  | nil => simp [Expression.cutRuns, laterTerms, runs, map, join, foldLeft, combineNext, first]
  | cons x rest ih =>
    obtain ⟨c, p⟩ := x
    rw [Expression.cutRuns]
    by_cases hc : c.isTight = true
    · rw [if_pos hc, ih]
      exact (map_foldLeft_runs_of_tight .join .always ⟨head, opener⟩ (next c p) _ rfl hc).symm
    · have hopens : (next c p).opensRun = true := by simpa [opensRun, next] using hc
      have hruns : runs (⟨head, opener⟩ :: laterTerms ((c, p) :: rest)) =
          ⟨[first head], opener⟩ :: runs (⟨p, some c⟩ :: laterTerms rest) :=
        runs_cons_of_opens hopens
      rw [if_neg hc, hruns, List.map_cons, ← ih p (some c)]
      simp [laterTerms, next, map, join, foldLeft, combineNext, first]

/-- The predicate of a chain is a left fold of left folds. -/
theorem joinChain_eq_byRuns (head : Predicate α) (tail : List (Connective × Predicate α)) :
    Expression.joinChain head tail = byRuns join (first head :: laterTerms tail) := by
  have hjoin (p : Predicate α) (rest : List (Connective × Predicate α)) :
      Expression.joinRuns p rest = join (first p :: laterTerms rest) := by
    simp [Expression.joinRuns, join, foldLeft, laterTerms, List.foldl_map, combineNext, first, next]
  rw [byRuns, first, ← terms_cutRuns]
  exact hjoin _ _

/-! ### Images of the nodes -/

/-- Where a chain is cut depends on its connectives alone. -/
theorem runs_map (f : α → β) (ts : List (Term α)) :
    runs (ts.map (map f)) = (runs ts).map (map (List.map (map f))) := by
  fun_induction runs ts with
  | case1 => simp [runs]
  | case2 t ts ih =>
    have hopens : (fun u : Term β ↦ !u.opensRun) ∘ map f = fun u ↦ !u.opensRun := rfl
    rw [List.map_cons, List.map_cons, runs, List.takeWhile_map, List.dropWhile_map, hopens, ih]
    rfl

/-- A map that commutes with a fold of sequences commutes with the fold of their runs. -/
theorem byRuns_hom {f : List (Term α) → α} {f' : List (Term β) → β} (g : α → β)
    (h : ∀ us, g (f us) = f' (us.map (map g))) (ts : List (Term α)) :
    g (byRuns f ts) = byRuns f' (ts.map (map g)) := by
  have hg : map g ∘ map f = map f' ∘ map (List.map (map g)) := by
    funext run
    simp [map, h]
  rw [byRuns, byRuns, h, runs_map, List.map_map, List.map_map, hg]

theorem opensRun_of_traverse {f : α → Except ε β} {ts : List (Term α)} {us : List (Term β)}
    (h : traverse f ts = .ok us) : us.map (·.opensRun) = ts.map (·.opensRun) := by
  have hc := congrArg (List.map (Option.any (!·.isTight))) (connectives_of_traverse h)
  rw [List.map_map, List.map_map] at hc
  exact hc

theorem runs_of_traverse {f : α → Except ε β} {t : Term β} {ts : List (Term α)}
    {us vs : List (Term β)} (hus : traverse f (ts.takeWhile (!·.opensRun)) = .ok us)
    (hvs : traverse f (ts.dropWhile (!·.opensRun)) = .ok vs) :
    runs (t :: (us ++ vs)) = ⟨first t.node :: us, t.connective⟩ :: runs vs := by
  apply runs_append
  · intro u hu
    have hmem : u.opensRun ∈ us.map (·.opensRun) := List.mem_map_of_mem hu
    rw [opensRun_of_traverse hus] at hmem
    obtain ⟨v, hv, hvu⟩ := List.mem_map.mp hmem
    rw [← hvu]
    simpa using List.mem_takeWhile_imp hv
  · intro v hv
    have hhead := congrArg List.head? (opensRun_of_traverse hvs)
    rw [List.head?_map, List.head?_map, Option.mem_def.mp hv] at hhead
    obtain ⟨u, hu, huv⟩ := Option.map_eq_some_iff.mp hhead.symm
    exact huv.symm.trans (opensRun_of_head_dropWhile ts u hu)

/-- Giving the clauses of every run their images in turn is giving them in the order of the
chain. -/
theorem traverse_runs (f : α → Except ε β) (ts : List (Term α)) :
    traverse (traverse f) (runs ts) = runs <$> traverse f ts := by
  fun_induction runs ts with
  | case1 => simp [traverse, runs]
  | case2 t ts ih =>
    have hsplit := traverse_append (f := f) (ts.takeWhile (!·.opensRun))
      (ts.dropWhile (!·.opensRun))
    rw [List.takeWhile_append_dropWhile] at hsplit
    simp only [traverse, ih, hsplit]
    cases hx : f t.node with
    | error e => simp [first, hx, bind, Except.bind, Functor.map, Except.map]
    | ok x =>
      cases hus : traverse f (ts.takeWhile (!·.opensRun)) with
      | error e => simp [first, hx, bind, Except.bind, Functor.map, Except.map]
      | ok us =>
        cases hvs : traverse f (ts.dropWhile (!·.opensRun)) with
        | error e => simp [first, hx, bind, Except.bind, Functor.map, Except.map, pure, Except.pure]
        | ok vs =>
          have hcut := runs_of_traverse (t := ⟨x, t.connective⟩) hus hvs
          simp [first, hx, bind, Except.bind, Functor.map, Except.map, pure, Except.pure, hcut]

/-- The terms of all runs are those of the chain, in order. -/
theorem flatMap_runs (g : α → List β) (ts : List (Term α)) :
    (runs ts).flatMap (fun run ↦ run.node.flatMap (g ·.node)) = ts.flatMap (g ·.node) := by
  fun_induction runs ts with
  | case1 => rfl
  | case2 t ts ih =>
    have hsplit := congrArg (List.flatMap (g ·.node))
      (List.takeWhile_append_dropWhile (p := fun u : Term α ↦ !u.opensRun) (l := ts))
    rw [List.flatMap_append] at hsplit
    rw [List.flatMap_cons, ih, List.flatMap_cons, List.flatMap_cons, List.append_assoc, hsplit]
    rfl

theorem exists_mem_of_mem_runs {ts : List (Term α)} {run : Term (List (Term α))}
    (hrun : run ∈ runs ts) {t : Term α} (ht : t ∈ run.node) : ∃ u ∈ ts, u.node = t.node := by
  have hmem : t.node ∈ (runs ts).flatMap fun run ↦ run.node.flatMap ([·.node]) :=
    List.mem_flatMap_of_mem hrun (List.mem_flatMap_of_mem ht List.mem_cons_self)
  rw [flatMap_runs fun x ↦ [x]] at hmem
  obtain ⟨u, hu, hn⟩ := List.mem_flatMap.mp hmem
  exact ⟨u, hu, (List.mem_singleton.mp hn).symm⟩

/-! ### The shape of runs -/

/-- The first term of a run stands alone, and each later one is joined tightly. -/
def IsRun (us : List (Term α)) : Prop := Sequenced us ∧ ∀ u ∈ us, u.opensRun = false

/-- Runs that make up a chain: the first stands alone, and each later one is joined loosely. -/
structure IsCut (rs : List (Term (List (Term α)))) : Prop where
  sequenced : Sequenced rs
  loose : ∀ run ∈ rs.tail, run.opensRun = true
  isRun : ∀ run ∈ rs, IsRun run.node

theorem isRun_of_mem_runs {ts : List (Term α)} (h : ∀ t ∈ ts.tail, t.connective.isSome = true) :
    ∀ run ∈ runs ts, IsRun run.node := by
  fun_induction runs ts with
  | case1 => simp
  | case2 t ts ih =>
    intro run hrun
    rcases List.mem_cons.mp hrun with rfl | hrun
    · refine ⟨⟨rfl, fun u hu ↦ h u ((List.takeWhile_sublist _).subset hu)⟩, fun u hu ↦ ?_⟩
      rcases List.mem_cons.mp hu with rfl | hu
      · rfl
      · simpa using List.mem_takeWhile_imp hu
    · refine ih (fun u hu ↦ ?_) run hrun
      exact h u ((List.dropWhile_sublist _).subset (List.mem_of_mem_tail hu))

theorem opensRun_of_mem_runs {ts : List (Term α)} (h : ∀ t ∈ ts.head?, t.opensRun = true) :
    ∀ run ∈ runs ts, run.opensRun = true := by
  fun_induction runs ts with
  | case1 => simp
  | case2 t ts ih =>
    intro run hrun
    rcases List.mem_cons.mp hrun with rfl | hrun
    · exact h t rfl
    · exact ih (opensRun_of_head_dropWhile ts) run hrun

/-- A sequence is cut into runs. -/
theorem isCut_runs {ts : List (Term α)} (h : Sequenced ts) : IsCut (runs ts) := by
  cases ts with
  | nil => constructor <;> simp [runs, Sequenced]
  | cons t ts =>
    obtain ⟨hc, hs⟩ := h
    have hlater : ∀ run ∈ runs (ts.dropWhile (!·.opensRun)), run.opensRun = true :=
      opensRun_of_mem_runs (opensRun_of_head_dropWhile ts)
    have hrun : ∀ run ∈ runs (t :: ts), IsRun run.node := isRun_of_mem_runs hs
    rw [runs] at hrun ⊢
    exact ⟨⟨hc, fun run hr ↦ isSome_of_opensRun (hlater run hr)⟩, hlater, hrun⟩

theorem IsRun.of_append {us vs : List (Term α)} (h : IsRun (us ++ vs)) : IsRun us :=
  ⟨sequenced_of_append h.1, fun u hu ↦ h.2 u (List.mem_append_left _ hu)⟩

theorem IsCut.of_append {rs qs : List (Term (List (Term α)))} (h : IsCut (rs ++ qs)) :
    IsCut rs := by
  refine ⟨sequenced_of_append h.sequenced, fun run hr ↦ h.loose run ?_,
    fun run hr ↦ h.isRun run (List.mem_append_left _ hr)⟩
  cases rs with
  | nil => cases hr
  | cons r rs => exact List.mem_append_left _ hr

/-! ### Values -/

theorem apply_of_tight {c : Connective} (h : c.isTight = true) (a b : Bool) :
    c.apply a b = (a && (b != (some c == some .andNot))) := by
  revert a b
  cases c <;> simp_all [Connective.isTight] <;> decide

theorem apply_of_loose {c : Connective} (h : c.isTight = false) (a b : Bool) :
    c.apply a b = (a || (b != (some c == some .orNot))) := by
  revert a b
  cases c <;> simp_all [Connective.isTight] <;> decide

/-- A run holds where all its clauses are satisfied. -/
theorem fold_of_isRun {ts : List (Term Bool)} (h : IsRun ts) :
    fold ts = ts.all (satisfied id) := by
  induction ts using List.reverseRecOn with
  | nil => rfl
  | append_singleton ts t ih =>
    obtain ⟨hs, hc⟩ := sequenced_concat.mp h.1
    have htight : t.opensRun = false := h.2 t (by simp)
    have ih := ih ⟨hs, fun u hu ↦ h.2 u (by simp [hu])⟩
    rw [fold, foldLeft_concat, ← fold, List.all_append, ← ih]
    cases ht : t.connective with
    | none =>
      rw [hc.mp ht]
      simp [combineNext, satisfied, fold, foldLeft, ht]
    | some c =>
      have hct : c.isTight = true := by simpa [opensRun, ht] using htight
      simp [combineNext, satisfied, ht, apply_of_tight hct]

/-- Loosely joined values are true together where one of them contributes. -/
theorem fold_of_loose {ts : List (Term Bool)} (hne : ts ≠ []) (h : Sequenced ts)
    (hloose : ∀ t ∈ ts.tail, t.opensRun = true) :
    fold ts = ts.any fun t ↦ t.node != (t.connective == some .orNot) := by
  induction ts using List.reverseRecOn with
  | nil => exact absurd rfl hne
  | append_singleton ts t ih =>
    obtain ⟨hs, hc⟩ := sequenced_concat.mp h
    rw [fold, foldLeft_concat, ← fold]
    cases ts with
    | nil =>
      have ht : t.connective = none := hc.mpr rfl
      simp [combineNext, ht]
    | cons u us =>
      have ht : t.opensRun = true := hloose t (by simp)
      have ih := ih (by simp) hs fun v hv ↦ hloose v (by simp_all)
      rw [List.any_append, ← ih]
      cases htc : t.connective with
      | none => simp [opensRun, htc] at ht
      | some c =>
        have hcl : c.isTight = false := by simpa [opensRun, htc] using ht
        simp [combineNext, htc, apply_of_loose hcl]

theorem fold_map_of_isRun {value : α → Bool} {us : List (Term α)} (h : IsRun us) :
    fold (us.map (map value)) = us.all (satisfied value) := by
  have hrun : IsRun (us.map (map value)) := by
    refine ⟨sequenced_map h.1, fun u hu ↦ ?_⟩
    obtain ⟨v, hv, rfl⟩ := List.mem_map.mp hu
    exact h.2 v hv
  rw [fold_of_isRun hrun, List.all_map]
  rfl

/-- A chain holds where one of its runs contributes. -/
theorem fold_map_of_isCut {value : α → Bool} {rs : List (Term (List (Term α)))} (hne : rs ≠ [])
    (h : IsCut rs) :
    fold (rs.map (map fun us ↦ fold (us.map (map value)))) = rs.any (contribution value) := by
  have hloose : ∀ t ∈ (rs.map (map fun us ↦ fold (us.map (map value)))).tail,
      t.opensRun = true := by
    intro t ht
    rw [← List.map_tail] at ht
    obtain ⟨run, hr, rfl⟩ := List.mem_map.mp ht
    exact h.loose run hr
  rw [fold_of_loose (by simpa using hne) (sequenced_map h.sequenced) hloose, List.any_map]
  apply Bool.eq_iff_iff.mpr
  simp only [List.any_eq_true, Function.comp_apply]
  constructor
  · rintro ⟨run, hr, hv⟩
    exact ⟨run, hr, by rwa [contribution, ← fold_map_of_isRun (h.isRun run hr)]⟩
  · rintro ⟨run, hr, hv⟩
    exact ⟨run, hr, by rwa [contribution, ← fold_map_of_isRun (h.isRun run hr)] at hv⟩

/-- The value of a chain, by the contributions of its runs. -/
theorem byRuns_fold {value : α → Bool} {ts : List (Term α)} (hne : ts ≠ []) (h : Sequenced ts) :
    byRuns fold (ts.map (map value)) = (runs ts).any (contribution value) := by
  rw [← fold_map_of_isCut (runs_ne_nil hne) (isCut_runs h), byRuns, runs_map, List.map_map]
  rfl

/-! ### The order of evaluation -/

/-- A chain has the tests of all its clauses, in order. -/
theorem tests_byRuns {ts : List (Term (Predicate α))} (h : Sequenced ts) :
    (byRuns join ts).tests = ts.flatMap (·.node.tests) := by
  have hcut := isCut_runs h
  rw [byRuns, tests_join (sequenced_map hcut.sequenced), List.flatMap_map, ← flatMap_runs]
  have hrun : ∀ run ∈ runs ts, (map join run).node.tests = run.node.flatMap (·.node.tests) :=
    fun run hr ↦ tests_join (hcut.isRun run hr).1
  rw [List.flatMap_congr hrun]

/-- A clause is needed where every earlier clause of its run is satisfied. -/
theorem needed_in_run {value : α → Bool} {before after : List (Term α)} {t : Term α}
    (h : IsRun (before ++ t :: after)) :
    (∀ c, t.connective = some c → c.needsSecond (fold (before.map (map value))) = true) ↔
      ∀ u ∈ before, satisfied value u = true := by
  rw [fold_map_of_isRun h.of_append]
  cases hc : t.connective with
  | none => simp [(connective_eq_none_iff h.1).mp hc]
  | some c =>
    have htight : t.opensRun = false := h.2 t (by simp)
    have hct : c.isTight = true := by simpa [opensRun, hc] using htight
    simp [Connective.needsSecond, hct]

/-- A run is needed where no earlier run contributes. -/
theorem needed_in_cut {value : α → Bool} {earlier later : List (Term (List (Term α)))}
    {run : Term (List (Term α))} (h : IsCut (earlier ++ run :: later)) :
    (∀ c, run.connective = some c →
        c.needsSecond (fold (earlier.map (map fun us ↦ fold (us.map (map value))))) = true) ↔
      ∀ e ∈ earlier, contribution value e = false := by
  cases hc : run.connective with
  | none => simp [(connective_eq_none_iff h.sequenced).mp hc]
  | some c =>
    have hne : earlier ≠ [] := by
      intro he
      rw [(connective_eq_none_iff h.sequenced).mpr he] at hc
      cases hc
    obtain ⟨e, es, rfl⟩ := List.exists_cons_of_ne_nil hne
    have hloose : run.opensRun = true := h.loose run (by simp)
    have hcl : c.isTight = false := by simpa [opensRun, hc] using hloose
    rw [fold_map_of_isCut hne h.of_append]
    simp [Connective.needsSecond, hcl]

/-- What is asked of a chain of tests are those of them whose run no earlier run has made
superfluous, and before which all tests of their run are satisfied. -/
theorem mem_asked_of_isCut {value : α → Bool} {rs : List (Term (List (Term α)))} (h : IsCut rs)
    {x : α} :
    x ∈ (join (rs.map (map fun us ↦ join (us.map (map .test))))).asked value ↔
      ∃ earlier run later, rs = earlier ++ run :: later ∧
        (∀ e ∈ earlier, contribution value e = false) ∧
        ∃ before t after, run.node = before ++ t :: after ∧ t.node = x ∧
          ∀ u ∈ before, satisfied value u = true := by
  have hfold (us : List (Term α)) :
      (join (us.map (map .test))).value value = fold (us.map (map value)) := by
    rw [value_join, List.map_map]
    rfl
  rw [mem_asked_join_map h.sequenced]
  simp only [hfold]
  constructor
  · rintro ⟨earlier, run, later, rfl, hx, hn⟩
    have hrun := h.isRun run (by simp)
    obtain ⟨before, t, after, hnode, hx, ht⟩ := (mem_asked_join_map hrun.1).mp hx
    rw [hnode] at hrun
    exact ⟨earlier, run, later, rfl, (needed_in_cut h).mp hn, before, t, after, hnode,
      (List.mem_singleton.mp hx).symm, (needed_in_run hrun).mp ht⟩
  · rintro ⟨earlier, run, later, rfl, he, before, t, after, hnode, rfl, hb⟩
    have hrun := h.isRun run (by simp)
    refine ⟨earlier, run, later, rfl, ?_, (needed_in_cut h).mpr he⟩
    refine (mem_asked_join_map hrun.1).mpr ⟨before, t, after, hnode, List.mem_singleton_self _, ?_⟩
    rw [hnode] at hrun
    exact (needed_in_run hrun).mpr hb

end Term

end SamplingFrame
