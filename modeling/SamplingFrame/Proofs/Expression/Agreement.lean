import SamplingFrame.Proofs.Expression.Predicate
import SamplingFrame.Proofs.Group.Predicate

/-!
# Where precedence makes no difference

The same rules and connectives make up a group, which knows no precedence, and a chain, which does.
Both mean the same for all rules exactly if no tight connective follows a loose one. Then they even
have the same predicate; otherwise there are rules and a unit that tell them apart.
-/

namespace SamplingFrame

namespace Term

variable {α β : Type}

/-- No tight connective follows a loose one. -/
def TightFirst (connectives : List Connective) : Prop :=
  connectives.Pairwise fun c d ↦ d.isTight = true → c.isTight = true

/-! ### Sequences of given connectives -/

theorem sequenced_assemble (xs : List α) (connectives : List Connective) :
    Sequenced (assemble xs connectives) := by
  cases xs with
  | nil => trivial
  | cons x xs =>
    refine ⟨rfl, fun u hu ↦ ?_⟩
    obtain ⟨y, -, rfl⟩ := List.mem_map.mp hu
    rfl

theorem assemble_map (f : α → β) (xs : List α) (connectives : List Connective) :
    assemble (xs.map f) connectives = (assemble xs connectives).map (map f) := by
  cases xs with
  | nil => rfl
  | cons x xs =>
    simp only [List.map_cons, assemble, List.zip_map_right, List.map_map]
    rfl

/-- Where there is one connective between any two neighbours, all of them are used. -/
theorem connectives_tail_assemble {xs : List α} {connectives : List Connective}
    (h : xs.length = connectives.length + 1) :
    (assemble xs connectives).tail.map (·.connective) = connectives.map some := by
  cases xs with
  | nil => cases h
  | cons x xs =>
    have hle : connectives.length ≤ xs.length := by
      rw [List.length_cons] at h
      omega
    have hzip := congrArg (List.map some) (List.map_fst_zip hle)
    rw [List.map_map] at hzip
    rw [assemble, List.tail_cons, List.map_map]
    exact hzip

/-! ### Runs where tight connectives come first -/

theorem runs_of_forall_opensRun {ts : List (Term α)} (h : ∀ t ∈ ts, t.opensRun = true) :
    runs ts = ts.map fun t ↦ ⟨[first t.node], t.connective⟩ := by
  induction ts with
  | nil => rw [runs, List.map_nil]
  | cons t ts ih =>
    have hts := ih fun u hu ↦ h u (List.mem_cons_of_mem t hu)
    cases ts with
    | nil => simp [runs]
    | cons u us =>
      rw [runs_cons_of_opens (h u (List.mem_cons_of_mem t List.mem_cons_self)), hts]
      rfl

/-- Of terms whose tight connectives come first, those from the first loose one on are loose. -/
theorem opensRun_of_mem_dropWhile {ts : List (Term α)} {cs : List Connective} (h : TightFirst cs)
    (hcs : ts.map (·.connective) = cs.map some) :
    ∀ t ∈ ts.dropWhile (!·.opensRun), t.opensRun = true := by
  induction ts generalizing cs with
  | nil => simp
  | cons t ts ih =>
    obtain ⟨c, cs, rfl, hc, hrest⟩ := List.map_eq_cons_iff.mp hcs.symm
    obtain ⟨hfirst, hcs'⟩ := List.pairwise_cons.mp h
    rw [List.dropWhile_cons]
    split
    · exact ih hcs' hrest.symm
    · next ht =>
      have hloose : c.isTight = false := by simpa [opensRun, ← hc] using ht
      intro u hu
      rcases List.mem_cons.mp hu with rfl | hu
      · simpa using ht
      · have hmem : u.connective ∈ cs.map some := hrest ▸ List.mem_map_of_mem hu
        obtain ⟨d, hd, hud⟩ := List.mem_map.mp hmem
        have hdl : d.isTight = false := by
          by_contra hne
          rw [hfirst d hd (by simpa using hne)] at hloose
          cases hloose
        simp [opensRun, ← hud, hdl]

/-- Where tight connectives come first, a fold run by run is a fold from left to right. -/
theorem byRuns_foldLeft (combine : Connective → α → α → α) (start : α) {ts : List (Term α)}
    {cs : List Connective} (hs : Sequenced ts) (h : TightFirst cs)
    (hcs : ts.tail.map (·.connective) = cs.map some) :
    byRuns (foldLeft combine start) ts = foldLeft combine start ts := by
  cases ts with
  | nil => simp [byRuns, runs]
  | cons t ts =>
    have hloose : ∀ u ∈ ts.dropWhile (!·.opensRun), u.opensRun = true :=
      opensRun_of_mem_dropWhile h hcs
    have hsingle : map (foldLeft combine start) ∘
        (fun u : Term α ↦ ⟨[first u.node], u.connective⟩) = id := rfl
    rw [byRuns, runs, runs_of_forall_opensRun hloose, List.map_cons, List.map_map, hsingle,
      List.map_id]
    have hfirst : first t.node = t := by
      obtain ⟨x, c⟩ := t
      obtain rfl : c = none := hs.1
      rfl
    have hhead : foldLeft combine start (t :: ts.takeWhile (!·.opensRun)) =
        combineNext combine start (map (foldLeft combine start)
          ⟨first t.node :: ts.takeWhile (!·.opensRun), t.connective⟩) := by
      rw [combineNext, map, hs.1, hfirst]
    have hsplit : t :: ts =
        (t :: ts.takeWhile (!·.opensRun)) ++ ts.dropWhile (!·.opensRun) := by
      rw [List.cons_append, List.takeWhile_append_dropWhile]
    rw [hsplit, foldLeft, List.foldl_cons, ← hhead, foldLeft, foldLeft, List.foldl_append]

/-! ### Values that tell a group and a chain apart -/

/-- Values that satisfy the first terms and none of the later ones. -/
def splitValues (us vs : List Connective) : List Bool :=
  true :: (us.map (!·.isNegating) ++ vs.map (·.isNegating))

theorem assemble_splitValues (us vs : List Connective) :
    assemble (splitValues us vs) (us ++ vs) =
      first true :: (us.map (fun c ↦ next c (!c.isNegating)) ++
        vs.map fun c ↦ next c c.isNegating) := by
  rw [splitValues, assemble, List.zip_append (List.length_map _).symm, List.map_append,
    ← List.map_prod_left_eq_zip, ← List.map_prod_left_eq_zip, List.map_map, List.map_map]
  rfl

/-- Satisfied terms keep the value true, and after them the first tight term makes it false. -/
theorem fold_splitValues {us vs : List Connective} {d : Connective} (hd : d ∈ vs)
    (ht : d.isTight = true) : fold (assemble (splitValues us vs) (us ++ vs)) = false := by
  have hus : ∀ us : List Connective,
      foldLeft Connective.apply true (us.map fun c ↦ next c (!c.isNegating)) = true := by
    intro us
    induction us with
    | nil => rfl
    | cons c us ih => cases c <;> exact ih
  have hvs : ∀ (vs : List Connective) (a : Bool),
      foldLeft Connective.apply a (vs.map fun c ↦ next c c.isNegating) =
        (a && vs.all (!·.isTight)) := by
    intro vs
    induction vs with
    | nil => simp [foldLeft]
    | cons c vs ih =>
      intro a
      have hstep : foldLeft Connective.apply a ((c :: vs).map fun c ↦ next c c.isNegating) =
          foldLeft Connective.apply (c.apply a c.isNegating)
            (vs.map fun c ↦ next c c.isNegating) := rfl
      rw [hstep, ih]
      cases c <;> simp [Connective.apply, Connective.isNegating, Connective.isTight]
  have hall : vs.all (!·.isTight) = false := by
    rw [List.all_eq_false]
    exact ⟨d, hd, by simp [ht]⟩
  rw [assemble_splitValues, fold, foldLeft, List.foldl_cons, List.foldl_append]
  change foldLeft Connective.apply (foldLeft Connective.apply true _) _ = false
  rw [hus, hvs, hall, Bool.and_false]

theorem takeWhile_append_of_stop {p : α → Bool} {xs ys : List α} {x : α} (hx : x ∈ xs)
    (hp : p x = false) : (xs ++ ys).takeWhile p = xs.takeWhile p := by
  rw [List.takeWhile_append, if_neg]
  intro hlength
  have hall := (List.takeWhile_sublist p).eq_of_length hlength
  rw [← hall] at hx
  rw [List.mem_takeWhile_imp hx] at hp
  cases hp

/-- The first run of a chain holds if it ends among satisfied terms. -/
theorem byRuns_fold_splitValues {us vs : List Connective} {c : Connective} (hc : c ∈ us)
    (hl : c.isTight = false) :
    byRuns fold (assemble (splitValues us vs) (us ++ vs)) = true := by
  have hmap (ts : List (Term Bool)) : ts.map (map id) = ts := List.map_id ts
  have hfirst : ∀ u ∈ us.map fun c ↦ next c (!c.isNegating),
      u.opensRun = false → satisfied id u = true := by
    intro u hu ht
    obtain ⟨d, -, rfl⟩ := List.mem_map.mp hu
    cases d with
    | and | andNot => rfl
    | or | orNot => cases ht
  have hstop : next c (!c.isNegating) ∈ us.map fun c ↦ next c (!c.isNegating) :=
    List.mem_map_of_mem hc
  have hopens : (!(next c (!c.isNegating)).opensRun) = false := by simp [next, opensRun, hl]
  have hne : assemble (splitValues us vs) (us ++ vs) ≠ [] := by simp [assemble_splitValues]
  rw [← hmap (assemble _ _), byRuns_fold hne (sequenced_assemble _ _), assemble_splitValues, runs,
    takeWhile_append_of_stop hstop hopens, List.any_cons, Bool.or_eq_true]
  have hall : (first true :: (us.map fun c ↦ next c (!c.isNegating)).takeWhile
      (!·.opensRun)).all (satisfied id) = true := by
    rw [List.all_eq_true]
    intro u hu
    rcases List.mem_cons.mp hu with rfl | hu
    · rfl
    · have htight : u.opensRun = false := by simpa using List.mem_takeWhile_imp hu
      exact hfirst u ((List.takeWhile_sublist _).subset hu) htight
  left
  simp only [first] at hall
  simp only [contribution, first, hall]
  rfl

/-- Where some connective is tight after a loose one, there are values that a group and a chain join
to different results. -/
theorem exists_values_of_not_tightFirst {cs : List Connective} (h : ¬TightFirst cs) :
    ∃ values : List Bool, values.length = cs.length + 1 ∧
      fold (assemble values cs) = false ∧ byRuns fold (assemble values cs) = true := by
  rw [TightFirst, List.pairwise_iff_forall_sublist] at h
  push Not at h
  obtain ⟨c, d, hcd, hd, hc⟩ := h
  obtain ⟨us, vs, rfl, hus, hsub⟩ := List.cons_sublist_iff.mp hcd
  have hvs : d ∈ vs := List.singleton_sublist.mp hsub
  refine ⟨splitValues us vs, by simp [splitValues], fold_splitValues hvs hd, ?_⟩
  exact byRuns_fold_splitValues hus (by simpa using hc)

end Term

/-! ### The same terms as a group and as a chain -/

namespace Group

/-- The predicate of a group that has rules only. -/
theorem predicate_ofRules {ts : List (Term Rule)} (h : Term.Sequenced ts) :
    (ofRules ts).predicate = Term.join <$> Term.traverse rulePredicate ts := by
  simp only [ofRules, predicate, predicateAt, joinRules_eq, joinGroups, bind, Except.bind]
  cases ts with
  | nil => rfl
  | cons t ts =>
    obtain ⟨r, c⟩ := t
    obtain ⟨rfl, hts⟩ := h
    have hlater (q : Predicate Test) :
        joinTerms (.group [] .rules) (fun _ ↦ rulePredicate) 1 (some q) ts =
          (fun us ↦ some (Term.foldLeft .join q us)) <$> Term.traverse rulePredicate ts :=
      joinTerms_later hts fun _ _ _ ↦ rfl
    rw [joinTerms, Term.traverse]
    cases rulePredicate r with
    | error fault => rfl
    | ok q =>
      have hstart : joinNext (.group [] .rules) 0 none none q = .ok q := rfl
      simp only [bind, Except.bind, hstart, hlater]
      cases Term.traverse rulePredicate ts <;> rfl

/-- The group of rules that are joined by connectives. -/
def ofSequence (rules : List Rule) (connectives : List Connective) : Group :=
  ofRules (Term.assemble rules connectives)

end Group

namespace Expression

/-- The chain of rules that are joined by connectives. -/
def ofSequence (rules : List Rule) (connectives : List Connective) : Expression :=
  .chain (Term.assemble (rules.map .rule) connectives)

theorem predicate_rule (r : Rule) : (rule r).predicate = Group.rulePredicate r := by
  rw [predicate, Group.rulePredicate]
  cases r.test <;> rfl

/-- The predicate of a chain whose clauses are rules. -/
theorem predicate_ofSequence {rules : List Rule} (connectives : List Connective)
    (hne : rules ≠ []) :
    (ofSequence rules connectives).predicate =
      Term.byRuns Term.join <$>
        Term.traverse Group.rulePredicate (Term.assemble rules connectives) := by
  obtain ⟨r, rules, rfl⟩ := List.exists_cons_of_ne_nil hne
  have hs := Term.sequenced_assemble ((r :: rules).map rule) connectives
  rw [ofSequence]
  rw [List.map_cons, Term.assemble] at hs ⊢
  rw [predicate_chain hs, ← Term.assemble, ← List.map_cons, Term.assemble_map, Term.traverse_map]
  have hrule : predicate ∘ rule = Group.rulePredicate := funext predicate_rule
  rw [hrule]

/-- A group and an expression mean the same: neither has a predicate, or both have one and the two
have the same outcome on every record of the catalog's kinds. -/
def Agrees (e : Expression) (g : Group) : Prop :=
  (∃ fault fault', e.predicate = .error fault ∧ g.predicate = .error fault') ∨
    ∃ p q, e.predicate = .ok p ∧ g.predicate = .ok q ∧
      ∀ r : Record, r.FitsOn Field.all → p.matches? r = q.matches? r

/-- Where tight connectives come first, a chain has the predicate of the group, or the same
fault. -/
theorem predicate_eq_of_tightFirst {connectives : List Connective} {rules : List Rule}
    (h : Term.TightFirst connectives) (hlength : rules.length = connectives.length + 1) :
    (ofSequence rules connectives).predicate = (Group.ofSequence rules connectives).predicate := by
  have hne : rules ≠ [] := List.ne_nil_of_length_pos (by omega)
  have hs := Term.sequenced_assemble rules connectives
  rw [predicate_ofSequence connectives hne, Group.ofSequence, Group.predicate_ofRules hs]
  cases hqs : Term.traverse Group.rulePredicate (Term.assemble rules connectives) with
  | error fault => rfl
  | ok qs =>
    have hc := Term.connectives_of_traverse hqs
    have htail : qs.tail.map (·.connective) = connectives.map some := by
      rw [List.map_tail, hc, ← List.map_tail, Term.connectives_tail_assemble hlength]
    have hfold : Term.byRuns (Term.foldLeft .join .always) qs = Term.foldLeft .join .always qs :=
      Term.byRuns_foldLeft .join .always (Term.sequenced_of_connectives hc hs) h htail
    exact congrArg Except.ok hfold

/-! ### Rules that tell a group and a chain apart -/

/-- A rule that the unit without employees matches or does not match. -/
def ruleOf (value : Bool) : Rule := .isOne (if value then .employeesYear else .employees)

/-- The test of such a rule. -/
def testOf (value : Bool) : Test :=
  ⟨if value then .employeesYear else .employees, false, .compares .equal (.integer 1)⟩

theorem traverse_ruleOf (ts : List (Term Bool)) :
    Term.traverse Group.rulePredicate (ts.map (Term.map ruleOf)) =
      .ok (ts.map (Term.map (.test ∘ testOf))) := by
  have hrule (value : Bool) :
      Group.rulePredicate (ruleOf value) = .ok (.test (testOf value)) := by
    cases value <;> rfl
  induction ts with
  | nil => rfl
  | cons t ts ih =>
    rw [List.map_cons, Term.traverse, ih]
    have ht : Group.rulePredicate (Term.map ruleOf t).node = .ok (.test (testOf t.node)) :=
      hrule t.node
    rw [ht]
    rfl

/-- On the unit without employees the rules have the values that they stand for. -/
theorem map_value_testOf (ts : List (Term Bool)) :
    (ts.map (Term.map (.test ∘ testOf))).map
      (Term.map (Predicate.value (Test.passes (StatisticalUnit.record .unstaffed)))) = ts := by
  have hvalue (value : Bool) :
      (testOf value).passes (StatisticalUnit.record .unstaffed) = value := by
    cases value <;> rfl
  rw [List.map_map]
  refine (List.map_congr_left fun t _ ↦ ?_).trans (List.map_id ts)
  obtain ⟨value, c⟩ := t
  exact congrArg (Term.mk · c) (hvalue value)

/-- Where some connective is tight after a loose one, some rules mean different things in a group
and in a chain. -/
theorem exists_rules_of_not_tightFirst {connectives : List Connective}
    (h : ¬Term.TightFirst connectives) :
    ∃ rules : List Rule, rules.length = connectives.length + 1 ∧
      ¬Agrees (ofSequence rules connectives) (Group.ofSequence rules connectives) := by
  obtain ⟨values, hlength, hgroup, hchain⟩ := Term.exists_values_of_not_tightFirst h
  have hne : values.map ruleOf ≠ [] := List.ne_nil_of_length_pos (by simp [hlength])
  have hs := Term.sequenced_assemble (values.map ruleOf) connectives
  have hp : (ofSequence (values.map ruleOf) connectives).predicate =
      .ok (Term.byRuns Term.join
        ((Term.assemble values connectives).map (Term.map (.test ∘ testOf)))) := by
    rw [predicate_ofSequence connectives hne, Term.assemble_map, traverse_ruleOf]
    rfl
  have hq : (Group.ofSequence (values.map ruleOf) connectives).predicate =
      .ok (Term.join ((Term.assemble values connectives).map (Term.map (.test ∘ testOf)))) := by
    rw [Group.ofSequence, Group.predicate_ofRules hs, Term.assemble_map, traverse_ruleOf]
    rfl
  have hfits := StatisticalUnit.fitsOn .unstaffed
  refine ⟨values.map ruleOf, by simp [hlength], ?_⟩
  rintro (⟨fault, -, herror, -⟩ | ⟨p, q, hp', hq', hsame⟩)
  · rw [hp] at herror
    cases herror
  · obtain rfl := Except.ok.inj (hp.symm.trans hp')
    obtain rfl := Except.ok.inj (hq.symm.trans hq')
    have hsame := hsame _ (hfits Field.all)
    rw [matches?_of_fits hp (hfits _), Group.matches?_of_fits hq (hfits _),
      Term.byRuns_hom (Predicate.value _) (Term.value_join _), Term.value_join, map_value_testOf,
      hgroup, hchain] at hsame
    cases hsame

/-- A group and a chain mean the same for all rules exactly if no tight connective follows a loose
one. Then their predicates also read the same fields in the same order. -/
theorem tightFirst_iff_agrees (connectives : List Connective) :
    (Term.TightFirst connectives ↔
      ∀ rules : List Rule, rules.length = connectives.length + 1 →
        Agrees (ofSequence rules connectives) (Group.ofSequence rules connectives)) ∧
    (Term.TightFirst connectives →
      ∀ rules : List Rule, rules.length = connectives.length + 1 →
        ∀ p q, (ofSequence rules connectives).predicate = .ok p →
          (Group.ofSequence rules connectives).predicate = .ok q →
          ∀ r : Record, p.matches? r = q.matches? r ∧ p.reads r = q.reads r) := by
  refine ⟨⟨fun h rules hlength ↦ ?_, fun h ↦ ?_⟩, ?_⟩
  · rw [Agrees, predicate_eq_of_tightFirst h hlength]
    cases (Group.ofSequence rules connectives).predicate with
    | error fault => exact .inl ⟨fault, fault, rfl, rfl⟩
    | ok p => exact .inr ⟨p, p, rfl, rfl, fun _ _ ↦ rfl⟩
  · by_contra hnot
    obtain ⟨rules, hlength, hdiffer⟩ := exists_rules_of_not_tightFirst hnot
    exact hdiffer (h rules hlength)
  · intro h rules hlength p q hp hq r
    rw [predicate_eq_of_tightFirst h hlength, hq] at hp
    obtain rfl := Except.ok.inj hp
    exact ⟨rfl, rfl⟩

/-- Tight connectives before loose ones keep the meaning of any three rules; in the other order
there are three rules whose meaning changes. -/
theorem tightFirst_iff_agrees_three :
    Term.TightFirst [.andNot, .orNot] ∧ ¬Term.TightFirst [.or, .and] ∧
      (∀ r₁ r₂ r₃ : Rule, Agrees
        (chain [.first (rule r₁), .next .andNot (rule r₂), .next .orNot (rule r₃)])
        (.mk [.first r₁, .next .andNot r₂, .next .orNot r₃] [])) ∧
      ∃ rules : List Rule, rules.length = 3 ∧
        ¬Agrees (ofSequence rules [.or, .and]) (Group.ofSequence rules [.or, .and]) := by
  have htight : Term.TightFirst [.andNot, .orNot] := by simp [Term.TightFirst, Connective.isTight]
  have hloose : ¬Term.TightFirst [.or, .and] := by simp [Term.TightFirst, Connective.isTight]
  refine ⟨htight, hloose, fun r₁ r₂ r₃ ↦ ?_, ?_⟩
  · exact (tightFirst_iff_agrees [.andNot, .orNot]).1.mp htight [r₁, r₂, r₃] rfl
  · by_contra hnone
    push Not at hnone
    exact hloose ((tightFirst_iff_agrees [.or, .and]).1.mpr hnone)

end Expression

end SamplingFrame
