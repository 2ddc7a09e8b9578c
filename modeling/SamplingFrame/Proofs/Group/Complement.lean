import SamplingFrame.Proofs.Group.Check
import SamplingFrame.Proofs.Rule.Reading

/-!
# Complementary rules

Some operators come in pairs that hold of complementary values, and a missing value is on the side
of one of the two. Taking the other operator of its pair and toggling the connective of the rule
changes nothing: at whatever depth of a group this is done, the group has the same outcome and reads
the same fields.
-/

namespace SamplingFrame

/-! ### Predicates that cannot be told apart -/

namespace Predicate

/-- Two predicates have the same outcome on every record and read the same fields in the same
order. -/
def Alike (p q : Predicate Test) : Prop :=
  ∀ r, p.matches? r = q.matches? r ∧ p.reads r = q.reads r

/-- Two predicates have opposite values, or the same violation, on every record and read the same
fields in the same order. -/
def Opposite (p q : Predicate Test) : Prop :=
  ∀ r, p.matches? r = (!·) <$> q.matches? r ∧ p.reads r = q.reads r

variable {p p' q q' : Predicate Test}

theorem Alike.refl (p : Predicate Test) : p.Alike p := fun _ ↦ ⟨rfl, rfl⟩

theorem Alike.symm (h : p.Alike q) : q.Alike p := fun r ↦ ⟨(h r).1.symm, (h r).2.symm⟩

/-- The outcome of a join depends on the outcomes of its operands alone. -/
theorem matches?_join (c : Connective) (p q : Predicate Test) (r : Record) :
    (join c p q).matches? r = do
      let a ← p.matches? r
      if c.needsSecond a then c.apply a <$> q.matches? r else return a := by
  rcases eval_join_cases (Test.answer r) c p q with
    ⟨asked, e, hp, h⟩ | ⟨asked, a, hp, hn, h⟩ | ⟨asked, a, hp, hn, h⟩
  · rw [matches?, matches?, run, run, h, hp]
    rfl
  · rw [matches?, matches?, run, run, h, hp]
    exact (if_neg (by simp [hn])).symm
  · rw [matches?, matches?, run, run, h, hp]
    exact (if_pos hn).symm

/-- What a join reads depends on what its operands read and on the outcome of the first. -/
theorem reads_join (c : Connective) (p q : Predicate Test) (r : Record) :
    (join c p q).reads r =
      p.reads r ++ if c.needsSecond <$> p.matches? r = .ok true then q.reads r else [] := by
  rcases eval_join_cases (Test.answer r) c p q with
    ⟨asked, e, hp, h⟩ | ⟨asked, a, hp, hn, h⟩ | ⟨asked, a, hp, hn, h⟩
  · simp [reads, matches?, run, hp, h, Functor.map, Except.map]
  · simp [reads, matches?, run, hp, h, hn, Functor.map, Except.map]
  · simp [reads, matches?, run, hp, h, hn, Functor.map, Except.map]

theorem Alike.join (hp : p.Alike p') (hq : q.Alike q') (c : Connective) :
    (join c p q).Alike (.join c p' q') := by
  intro r
  rw [matches?_join, matches?_join, reads_join, reads_join, (hp r).1, (hp r).2, (hq r).1, (hq r).2]
  exact ⟨rfl, rfl⟩

/-- An operand may be replaced by an opposite one if the connective is toggled. -/
theorem Opposite.join (hp : p.Alike p') (hq : q.Opposite q') (c : Connective) :
    (join c p q).Alike (.join c.toggled p' q') := by
  intro r
  -- A connective negates its second operand only after it has decided whether to look at it.
  have hneeds : c.toggled.needsSecond = c.needsSecond := by cases c <;> rfl
  have hsecond (a : Bool) : c.apply a <$> q.matches? r = c.toggled.apply a <$> q'.matches? r := by
    rw [(hq r).1]
    cases q'.matches? r with
    | error e => rfl
    | ok b => exact congrArg Except.ok (Connective.apply_toggled c a b).symm
  constructor
  · simp only [matches?_join, hneeds, hsecond, (hp r).1]
  · rw [reads_join, reads_join, hneeds, (hp r).1, (hp r).2, (hq r).2]

/-- What follows in a sequence does not tell apart what cannot be told apart. -/
theorem Alike.foldLeft (hp : p.Alike p') (ts : List (Term (Predicate Test))) :
    (Term.foldLeft .join p ts).Alike (Term.foldLeft .join p' ts) := by
  induction ts generalizing p p' with
  | nil => exact hp
  | cons t ts ih =>
    obtain ⟨q, _ | c⟩ := t
    · exact Alike.refl _
    · exact ih (hp.join (Alike.refl q) c)

end Predicate

/-! ### Complementary operators -/

namespace Operator

variable {op op' : Operator}

theorem complement?_symm (h : op.complement? = some op') : op'.complement? = some op := by
  cases op <;> cases h <;> rfl

/-- Complementary operators take the same payloads, are allowed for the same fields and make the
same criterion, and one of the two is negative. -/
theorem of_complement? (h : op.complement? = some op') :
    op'.shape = op.shape ∧ (∀ f : Field, f.allows op' = f.allows op) ∧
      (∀ payload, Test.criterion? op' payload = Test.criterion? op payload) ∧
      op'.isNegative = !op.isNegative := by
  cases op <;> cases h <;> refine ⟨rfl, fun _ ↦ rfl, ?_, rfl⟩
  all_goals
    intro payload
    rcases payload with s | items | ⟨low, high⟩
    · cases s <;> rfl
    · rfl
    · rfl

end Operator

/-- The test of a rule with the complementary operator is the negated one. -/
theorem Rule.test_of_complement? {rule : Rule} {op : Operator} {t : Test}
    (hop : rule.operator.complement? = some op) (h : rule.test = .ok t) :
    Rule.test { rule with operator := op } = .ok { t with negated := !t.negated } := by
  obtain ⟨hshape, hallows, hcriterion, hnegative⟩ := Operator.of_complement? hop
  obtain ⟨ha, payload, c, hp, hc, rfl⟩ := test_eq_ok_iff.mp h
  refine test_eq_ok_iff.mpr ⟨(hallows rule.field).trans ha, payload, c, ?_, ?_, ?_⟩
  · exact Payload.read_congr hshape hp
  · exact (hcriterion payload).trans hc
  · rw [hnegative]

/-- A negated test has the opposite answer, and breaks off where the test itself does. -/
theorem Test.opposite_negated (t : Test) :
    (Predicate.test t).Opposite (.test { t with negated := !t.negated }) := by
  intro r
  refine ⟨?_, rfl⟩
  change t.answer r = (!·) <$> answer r { t with negated := !t.negated }
  rw [answer, answer]
  dsimp only
  cases r t.field with
  | none => exact congrArg Except.ok (Bool.not_not _).symm
  | some actual =>
    dsimp only
    cases t.criterion.holds t.field actual with
    | error v => rfl
    | ok b =>
      refine congrArg Except.ok ?_
      cases b <;> cases t.negated <;> rfl

/-! ### Terms that can be exchanged -/

namespace Term

/-- Two terms of a group can be exchanged: either both have predicates or none has, both have a
connective or none has, and after any predicate they come to the same. -/
structure Exchangeable (t t' : Term (Rule ⊕ Group)) : Prop where
  isSome : t'.connective.isSome = t.connective.isSome
  hasPredicate : (∃ q, Group.nodePredicate t.node = .ok q) ↔
    ∃ q, Group.nodePredicate t'.node = .ok q
  alike : ∀ q q', Group.nodePredicate t.node = .ok q → Group.nodePredicate t'.node = .ok q' →
    ∀ p, (combineNext .join p ⟨q, t.connective⟩).Alike (combineNext .join p ⟨q', t'.connective⟩)

theorem Exchangeable.symm {t t' : Term (Rule ⊕ Group)} (h : t.Exchangeable t') :
    t'.Exchangeable t :=
  ⟨h.isSome.symm, h.hasPredicate.symm, fun q q' hq hq' p ↦ (h.alike q' q hq' hq p).symm⟩

theorem sequenced_exchange {α : Type} {before after : List (Term α)} {t t' : Term α}
    (h : t'.connective.isSome = t.connective.isSome) :
    Sequenced (before ++ t' :: after) ↔ Sequenced (before ++ t :: after) := by
  cases before with
  | nil =>
    have hnone : t'.connective = none ↔ t.connective = none := by
      rw [← Option.isNone_iff_eq_none, ← Option.isNone_iff_eq_none, ← Option.not_isSome,
        ← Option.not_isSome, h]
    exact and_congr_left' hnone
  | cons u us => simp [Sequenced, or_imp, forall_and, h]

/-- A traversal succeeds around a term if it succeeds before it, at it and after it. -/
theorem traverse_around_eq_ok_iff {α β ε : Type} {f : α → Except ε β} {before after : List (Term α)}
    {t : Term α} {us : List (Term β)} :
    traverse f (before ++ t :: after) = .ok us ↔
      ∃ xs x ys, traverse f before = .ok xs ∧ f t.node = .ok x ∧ traverse f after = .ok ys ∧
        us = xs ++ ⟨x, t.connective⟩ :: ys := by
  rw [traverse_append_eq_ok_iff]
  constructor
  · rintro ⟨xs, zs, hxs, hzs, rfl⟩
    obtain ⟨x, hx, hzs⟩ := bind_eq_ok.mp hzs
    obtain ⟨ys, hys, hzs⟩ := bind_eq_ok.mp hzs
    cases hzs
    exact ⟨xs, x, ys, hxs, hx, hys, rfl⟩
  · rintro ⟨xs, x, ys, hxs, hx, hys, rfl⟩
    exact ⟨xs, _, hxs, bind_eq_ok.mpr ⟨x, hx, bind_eq_ok.mpr ⟨ys, hys, rfl⟩⟩, rfl⟩

theorem join_around (before after : List (Term (Predicate Test))) (t : Term (Predicate Test)) :
    join (before ++ t :: after) = foldLeft .join (combineNext .join (join before) t) after := by
  rw [join, foldLeft, List.foldl_append, List.foldl_cons]
  rfl

end Term

namespace Group

/-- Two groups mean the same: either both have predicates or none has, and the predicates cannot be
told apart. -/
def Alike (g g' : Group) : Prop :=
  ((∃ p, g.predicate = .ok p) ↔ ∃ p, g'.predicate = .ok p) ∧
    ∀ p p', g.predicate = .ok p → g'.predicate = .ok p' → p.Alike p'

variable {g g' : Group}

theorem terms_of_rules {rules before after : List (Term Rule)} {t : Term Rule}
    {groups : List (Term Group)} (h : rules = before ++ t :: after) :
    (mk rules groups).terms =
      before.map (Term.map .inl) ++ t.map .inl :: (mk after groups).terms := by
  simp [terms, h]

theorem terms_of_groups {rules : List (Term Rule)} {groups before after : List (Term Group)}
    {t : Term Group} (h : groups = before ++ t :: after) :
    (mk rules groups).terms = (mk rules before).terms ++ t.map .inr :: (mk [] after).terms := by
  simp [terms, h]

section Exchange

variable {before after : List (Term (Rule ⊕ Group))} {t t' : Term (Rule ⊕ Group)}

theorem exists_predicate_of_exchangeable (hg : g.terms = before ++ t :: after)
    (hg' : g'.terms = before ++ t' :: after) (h : t.Exchangeable t') :
    (∃ p, g.predicate = .ok p) → ∃ p, g'.predicate = .ok p := by
  simp only [predicate_eq_ok_iff, hg, hg', Term.traverse_around_eq_ok_iff]
  rintro ⟨_, hs, _, ⟨us, q, vs, hus, hq, hvs, rfl⟩, rfl⟩
  obtain ⟨q', hq'⟩ := h.hasPredicate.mp ⟨q, hq⟩
  exact ⟨_, (Term.sequenced_exchange h.isSome).mpr hs, _, ⟨us, q', vs, hus, hq', hvs, rfl⟩, rfl⟩

/-- Groups that differ in an exchangeable term mean the same. -/
theorem alike_of_exchangeable (hg : g.terms = before ++ t :: after)
    (hg' : g'.terms = before ++ t' :: after) (h : t.Exchangeable t') : g.Alike g' := by
  constructor
  · exact ⟨exists_predicate_of_exchangeable hg hg' h,
      exists_predicate_of_exchangeable hg' hg h.symm⟩
  · intro p p' hp hp'
    simp only [predicate_eq_ok_iff, hg, hg', Term.traverse_around_eq_ok_iff] at hp hp'
    obtain ⟨-, _, ⟨us, q, vs, hus, hq, hvs, rfl⟩, rfl⟩ := hp
    obtain ⟨-, _, ⟨us', q', vs', hus', hq', hvs', rfl⟩, rfl⟩ := hp'
    cases hus.symm.trans hus'
    cases hvs.symm.trans hvs'
    rw [Term.join_around, Term.join_around]
    exact (h.alike q q' hq hq' _).foldLeft vs

end Exchange

theorem exists_rulePredicate_of_complement? {rule : Rule} {op : Operator}
    (hop : rule.operator.complement? = some op) :
    (∃ q, rulePredicate rule = .ok q) → ∃ q, rulePredicate { rule with operator := op } = .ok q := by
  rintro ⟨q, hq⟩
  obtain ⟨t, ht, -⟩ := bind_eq_ok.mp hq
  exact ⟨_, bind_eq_ok.mpr ⟨_, Rule.test_of_complement? hop ht, rfl⟩⟩

/-- A rule may be exchanged for its complement under the toggled connective. -/
theorem exchangeable_of_complement? {rule : Rule} {op : Operator}
    (hop : rule.operator.complement? = some op) (c : Connective) :
    Term.Exchangeable ⟨.inl rule, some c⟩ ⟨.inl { rule with operator := op }, some c.toggled⟩ where
  isSome := rfl
  hasPredicate := ⟨exists_rulePredicate_of_complement? hop,
    exists_rulePredicate_of_complement? (Operator.complement?_symm hop)⟩
  alike := by
    intro q q' hq hq' p
    obtain ⟨t, ht, hq⟩ := bind_eq_ok.mp hq
    obtain ⟨t', ht', hq'⟩ := bind_eq_ok.mp hq'
    cases hq
    cases hq'
    cases (Rule.test_of_complement? hop ht).symm.trans ht'
    exact Predicate.Opposite.join (Predicate.Alike.refl p) t.opposite_negated c

/-- A subgroup may be exchanged for one that means the same. -/
theorem Alike.exchangeable (h : g.Alike g') (c : Option Connective) :
    Term.Exchangeable ⟨.inr g, c⟩ ⟨.inr g', c⟩ := by
  refine ⟨rfl, h.1, fun q q' hq hq' p ↦ ?_⟩
  cases c with
  | none => exact h.2 q q' hq hq'
  | some c => exact (Predicate.Alike.refl p).join (h.2 q q' hq hq') c

/-! ### Rules at any depth -/

/-- The group with a term in the place of the rule of an index in the group that a path leads to. -/
def setRule (t : Term Rule) (i : Nat) : List Nat → Group → Group
  | [], mk rules groups => mk (rules.set i t) groups
  | j :: path, mk rules groups => mk rules (groups.modify j (Term.map (setRule t i path)))

private theorem exists_set_eq {α : Type} {xs : List α} {i : Nat} {x : α} (h : xs[i]? = some x)
    (y : α) : ∃ before after, xs = before ++ x :: after ∧ xs.set i y = before ++ y :: after := by
  obtain ⟨hi, rfl⟩ := List.getElem?_eq_some_iff.mp h
  obtain ⟨before, after, hxs, -, hset⟩ := List.exists_of_set hi
  exact ⟨before, after, hxs, hset⟩

/-- A group means the same with a rule of it, at any depth, exchanged for its complement. -/
theorem alike_setRule {path : List Nat} {i : Nat} {below : Group} {rule : Rule} {c : Connective}
    {op : Operator} (hbelow : g.descend? path = some below)
    (hterm : below.rules[i]? = some ⟨rule, some c⟩) (hop : rule.operator.complement? = some op) :
    g.Alike (g.setRule ⟨{ rule with operator := op }, some c.toggled⟩ i path) := by
  -- At the end of the path the rule itself is exchanged, above it the subgroup that changed.
  induction path generalizing g with
  | nil =>
    obtain ⟨rules, groups⟩ := g
    cases hbelow
    obtain ⟨before, after, hrules, hset⟩ :=
      exists_set_eq hterm ⟨{ rule with operator := op }, some c.toggled⟩
    refine alike_of_exchangeable (terms_of_rules hrules) ?_ (exchangeable_of_complement? hop c)
    exact terms_of_rules hset
  | cons j path ih =>
    obtain ⟨rules, groups⟩ := g
    obtain ⟨u, hu, hbelow⟩ : ∃ u, groups[j]? = some u ∧ descend? path u.node = some below :=
      Option.bind_eq_some_iff.mp hbelow
    obtain ⟨before, after, hgroups, hset⟩ := exists_set_eq hu (u.map (setRule _ i path))
    have hterm := (ih hbelow).exchangeable u.connective
    refine alike_of_exchangeable (terms_of_groups hgroups) (terms_of_groups (Eq.trans ?_ hset)) hterm
    rw [List.modify_eq_set_getElem?, hu]
    rfl

/-- Where a rule of a group, at any depth, is exchanged for its complement and its connective is
toggled, the group has a predicate exactly if it had one before, and on every record the two
predicates have the same outcome and read the same fields. -/
theorem predicate_of_complemented {g below : Group} {path : List Nat} {i : Nat} {rule : Rule}
    {c : Connective} {op : Operator} (hbelow : g.descend? path = some below)
    (hterm : below.rules[i]? = some ⟨rule, some c⟩) (hop : rule.operator.complement? = some op) :
    ((∃ q, (g.setRule ⟨{ rule with operator := op }, some c.toggled⟩ i path).predicate = .ok q) ↔
      ∃ p, g.predicate = .ok p) ∧
    ∀ p q, g.predicate = .ok p →
      (g.setRule ⟨{ rule with operator := op }, some c.toggled⟩ i path).predicate = .ok q →
      ∀ r : Record, q.matches? r = p.matches? r ∧ q.reads r = p.reads r := by
  obtain ⟨hexists, halike⟩ := alike_setRule hbelow hterm hop
  exact ⟨hexists.symm, fun p q hp hq ↦ (halike p q hp hq).symm⟩

/-- A rule after another one. -/
def pair (c : Connective) (op : Operator) : Group :=
  ofRules [.first (.isOne .regId), .next c ⟨.parentId, op, .number (.integer 1)⟩]

/-- A group with a pair of rules in its only subgroup. -/
def overPair (c : Connective) (op : Operator) : Group :=
  .mk [.first (.isOne .employees)] [.next .or (pair c op)]

theorem predicate_of_complemented_overPair :
    (overPair .andNot .equal).descend? [0] = some (pair .andNot .equal) ∧
      ∃ p q, (overPair .andNot .equal).predicate = .ok p ∧
        (overPair .and .notEqual).predicate = .ok q ∧
        ∀ r : Record, q.matches? r = p.matches? r ∧ q.reads r = p.reads r := by
  have hbelow : (overPair .andNot .equal).descend? [0] = some (pair .andNot .equal) := rfl
  have hterm : (pair .andNot .equal).rules[1]? = some ⟨.isOne .parentId, some .andNot⟩ := rfl
  have hop : (Rule.isOne .parentId).operator.complement? = some .notEqual := rfl
  obtain ⟨hexists, hsame⟩ := predicate_of_complemented hbelow hterm hop
  obtain ⟨q, hq⟩ := hexists.mpr ⟨_, rfl⟩
  exact ⟨hbelow, _, q, rfl, hq, hsame _ q rfl hq⟩

end Group

end SamplingFrame
