import SamplingFrame.Group.Predicate
import SamplingFrame.Proofs.Sequence

/-!
# The terms of a group

The rules of a group and its subgroups make up one sequence of terms. A group has a predicate
exactly if this sequence has no connective too many or too few and each term has a predicate; where
the group stands only matters for its faults.
-/

namespace SamplingFrame

namespace Group

/-- Induction over a group, with the fact for all its subgroups. -/
@[elab_as_elim, induction_eliminator]
theorem induct {motive : Group → Prop}
    (mk : ∀ rules groups, (∀ t ∈ groups, motive t.node) → motive (mk rules groups)) (g : Group) :
    motive g := by
  refine @Group.rec motive (fun ts ↦ ∀ t ∈ ts, motive t.node) (fun t ↦ motive t.node) mk ?_ ?_ ?_ g
  · simp
  · intro t ts ht hts u hu
    rcases List.mem_cons.mp hu with rfl | hu
    · exact ht
    · exact hts u hu
  · exact fun g c hg ↦ hg

/-- The terms of a group: its rules, and after them its subgroups. -/
def terms : Group → List (Term (Rule ⊕ Group))
  | mk rules groups => rules.map (Term.map .inl) ++ groups.map (Term.map .inr)

/-- The predicate of a rule: its test alone. -/
def rulePredicate (r : Rule) : Except Fault (Predicate Test) := Predicate.test <$> r.test

/-- The predicate of a term of a group, by itself. -/
def nodePredicate : Rule ⊕ Group → Except Fault (Predicate Test) :=
  Sum.elim rulePredicate predicate

/-! ### Joining terms -/

variable {α : Type}

/-- Joins terms, the first of which has the given index. -/
def joinTerms (place : Place) (node : Nat → α → Except Fault (Predicate Test)) :
    Nat → Option (Predicate Test) → List (Term α) → Except Fault (Option (Predicate Test))
  | _, before, [] => .ok before
  | i, before, ⟨x, c⟩ :: ts => do
    let q ← node i x
    let p ← joinNext place i before c q
    joinTerms place node (i + 1) (some p) ts

theorem joinRules_eq (path : List Nat) (i : Nat) (before : Option (Predicate Test))
    (ts : List (Term Rule)) :
    joinRules path i before ts =
      joinTerms (.group path .rules) (fun _ ↦ rulePredicate) i before ts := by
  induction ts generalizing i before with
  | nil => rfl
  | cons t ts ih =>
    rw [joinRules, joinTerms, rulePredicate]
    cases t.node.test with
    | error fault => rfl
    | ok test => simp only [ih]; rfl

theorem joinGroups_eq (path : List Nat) (i : Nat) (before : Option (Predicate Test))
    (ts : List (Term Group)) :
    joinGroups path i before ts =
      joinTerms (.group path .groups) (fun j ↦ predicateAt (path ++ [j])) i before ts := by
  induction ts generalizing i before with
  | nil => rw [joinGroups]; rfl
  | cons t ts ih => simp only [joinGroups, joinTerms, ih]

/-- What has been made of the terms before the next one. -/
def joined (qs : List (Term (Predicate Test))) : Option (Predicate Test) :=
  if qs.isEmpty then none else some (Term.join qs)

theorem getD_joined (qs : List (Term (Predicate Test))) :
    (joined qs).getD .always = Term.join qs := by
  cases qs <;> rfl

/-- A term can be joined exactly if it continues the sequence. -/
theorem joinNext_eq_ok_iff {place : Place} {i : Nat} {qs : List (Term (Predicate Test))}
    {c : Option Connective} {q p : Predicate Test} (hqs : Term.Sequenced qs) :
    joinNext place i (joined qs) c q = .ok p ↔
      Term.Sequenced (qs ++ [⟨q, c⟩]) ∧ joined (qs ++ [⟨q, c⟩]) = some p := by
  have hjoined : joined (qs ++ [⟨q, c⟩]) = some (Term.join (qs ++ [⟨q, c⟩])) := by simp [joined]
  rw [Term.sequenced_concat, hjoined]
  cases c with
  | none =>
    rw [Term.join_concat_none rfl]
    cases qs <;> simp [joined, joinNext, hqs]
  | some c =>
    rw [Term.join_concat_some rfl]
    cases qs <;> simp [joined, joinNext, hqs]

/-- Terms can be joined exactly if each has a predicate and they continue the sequence. -/
theorem joinTerms_eq_ok_iff {place : Place} {node : Nat → α → Except Fault (Predicate Test)}
    {f : α → Except Fault (Predicate Test)} {i : Nat} {ts : List (Term α)}
    {qs : List (Term (Predicate Test))} {b : Option (Predicate Test)} (hqs : Term.Sequenced qs)
    (hnode : ∀ t ∈ ts, ∀ j q, node j t.node = .ok q ↔ f t.node = .ok q) :
    joinTerms place node i (joined qs) ts = .ok b ↔
      ∃ us, Term.traverse f ts = .ok us ∧ Term.Sequenced (qs ++ us) ∧ b = joined (qs ++ us) := by
  -- `qs` are the terms joined so far, of rules and subgroups alike.
  induction ts generalizing i qs with
  | nil => simp [joinTerms, Term.traverse, hqs, pure, Except.pure, eq_comm]
  | cons t ts ih =>
    obtain ⟨x, c⟩ := t
    have hx := hnode _ List.mem_cons_self
    have hts := fun t ht ↦ hnode t (List.mem_cons_of_mem _ ht)
    have happend (q : Predicate Test) (us : List (Term (Predicate Test))) :
        qs ++ ⟨q, c⟩ :: us = qs ++ [⟨q, c⟩] ++ us := List.append_cons qs ⟨q, c⟩ us
    constructor
    · intro h
      obtain ⟨q, hq, h⟩ := bind_eq_ok.mp h
      obtain ⟨p, hp, h⟩ := bind_eq_ok.mp h
      obtain ⟨hs, hj⟩ := (joinNext_eq_ok_iff hqs).mp hp
      rw [← hj] at h
      obtain ⟨us, hus, hs, rfl⟩ := (ih hs hts).mp h
      rw [← happend] at hs ⊢
      refine ⟨⟨q, c⟩ :: us, ?_, hs, rfl⟩
      exact bind_eq_ok.mpr ⟨q, (hx i q).mp hq, bind_eq_ok.mpr ⟨us, hus, rfl⟩⟩
    · rintro ⟨vs, h, hs, hb⟩
      obtain ⟨q, hq, h⟩ := bind_eq_ok.mp h
      obtain ⟨us, hus, h⟩ := bind_eq_ok.mp h
      cases h
      rw [happend] at hs hb
      have hs' := Term.sequenced_of_append hs
      obtain ⟨p, hj⟩ : ∃ p, joined (qs ++ [⟨q, c⟩]) = some p := by simp [joined]
      have hp : joinNext place i (joined qs) c q = .ok p := (joinNext_eq_ok_iff hqs).mpr ⟨hs', hj⟩
      refine bind_eq_ok.mpr ⟨q, (hx i q).mpr hq, bind_eq_ok.mpr ⟨p, hp, ?_⟩⟩
      rw [← hj]
      exact (ih hs' hts).mpr ⟨us, hus, hs, hb⟩

/-! ### Success -/

theorem sequenced_terms_iff {g : Group} {qs : List (Term (Predicate Test))}
    (h : Term.traverse nodePredicate g.terms = .ok qs) :
    Term.Sequenced qs ↔ Term.Sequenced g.terms := by
  have hc := Term.connectives_of_traverse h
  exact ⟨Term.sequenced_of_connectives hc.symm, Term.sequenced_of_connectives hc⟩

theorem traverse_terms_eq_ok_iff {rules : List (Term Rule)} {groups : List (Term Group)}
    {qs : List (Term (Predicate Test))} :
    Term.traverse nodePredicate (mk rules groups).terms = .ok qs ↔
      ∃ us vs, Term.traverse rulePredicate rules = .ok us ∧
        Term.traverse predicate groups = .ok vs ∧ qs = us ++ vs := by
  rw [terms, Term.traverse_append_eq_ok_iff, Term.traverse_map, Term.traverse_map]
  rfl

/-- Whether a group has a predicate does not depend on where it stands. -/
theorem predicateAt_eq_ok_iff {g : Group} {path : List Nat} {p : Predicate Test} :
    predicateAt path g = .ok p ↔ Term.Sequenced g.terms ∧
      ∃ qs, Term.traverse nodePredicate g.terms = .ok qs ∧ p = Term.join qs := by
  induction g generalizing path p with
  | mk rules groups ih =>
    have hnone : Term.Sequenced ([] : List (Term (Predicate Test))) := trivial
    have hrules (t) (_ : t ∈ rules) (_ : Nat) (q : Predicate Test) :
        rulePredicate t.node = .ok q ↔ rulePredicate t.node = .ok q := Iff.rfl
    have hgroups (t) (ht : t ∈ groups) (j : Nat) (q : Predicate Test) :
        predicateAt (path ++ [j]) t.node = .ok q ↔ t.node.predicate = .ok q :=
      (ih t ht).trans (ih t ht).symm
    rw [predicateAt, joinRules_eq]
    constructor
    · intro h
      obtain ⟨before, hb, h⟩ := bind_eq_ok.mp h
      obtain ⟨all, ha, h⟩ := bind_eq_ok.mp h
      cases h
      obtain ⟨us, hus, hsu, rfl⟩ := (joinTerms_eq_ok_iff hnone hrules).mp hb
      rw [joinGroups_eq] at ha
      obtain ⟨vs, hvs, hs, rfl⟩ := (joinTerms_eq_ok_iff hsu hgroups).mp ha
      have hqs := traverse_terms_eq_ok_iff.mpr ⟨us, vs, hus, hvs, rfl⟩
      exact ⟨(sequenced_terms_iff hqs).mp hs, _, hqs, getD_joined _⟩
    · rintro ⟨hs, qs, hqs, rfl⟩
      obtain ⟨us, vs, hus, hvs, rfl⟩ := traverse_terms_eq_ok_iff.mp hqs
      have hs := (sequenced_terms_iff hqs).mpr hs
      have hsu := Term.sequenced_of_append hs
      refine bind_eq_ok.mpr ⟨joined us, ?_, bind_eq_ok.mpr ⟨joined (us ++ vs), ?_, ?_⟩⟩
      · exact (joinTerms_eq_ok_iff hnone hrules).mpr ⟨us, hus, hsu, rfl⟩
      · rw [joinGroups_eq]
        exact (joinTerms_eq_ok_iff hsu hgroups).mpr ⟨vs, hvs, hs, rfl⟩
      · exact congrArg Except.ok (getD_joined _)

/-- A group has a predicate exactly if its terms are in sequence and each has one. -/
theorem predicate_eq_ok_iff {g : Group} {p : Predicate Test} :
    g.predicate = .ok p ↔ Term.Sequenced g.terms ∧
      ∃ qs, Term.traverse nodePredicate g.terms = .ok qs ∧ p = Term.join qs :=
  predicateAt_eq_ok_iff

/-! ### Rules -/

theorem leavesOfTerms_eq (ts : List (Term Group)) :
    leavesOfTerms ts = ts.flatMap (·.node.leaves) := by
  induction ts with
  | nil => rfl
  | cons t ts ih => rw [leavesOfTerms, ih, List.flatMap_cons]

theorem testsOf_rulePredicate {r : Rule} {p : Predicate Test} (h : rulePredicate r = .ok p) :
    Rule.TestsOf [r] p.tests := by
  obtain ⟨t, ht, h⟩ := bind_eq_ok.mp h
  cases h
  exact .cons ht .nil

/-- The predicate of a group has the tests of its rules, in their order. -/
theorem testsOf_leaves {g : Group} {p : Predicate Test} (h : g.predicate = .ok p) :
    Rule.TestsOf g.leaves p.tests := by
  induction g generalizing p with
  | mk rules groups ih =>
    obtain ⟨hs, qs, hqs, rfl⟩ := predicate_eq_ok_iff.mp h
    rw [Term.tests_join ((sequenced_terms_iff hqs).mpr hs)]
    obtain ⟨us, vs, hus, hvs, rfl⟩ := traverse_terms_eq_ok_iff.mp hqs
    have hrules : Rule.TestsOf (rules.flatMap fun t ↦ [t.node]) (us.flatMap (·.node.tests)) :=
      Term.forall₂_of_traverse (g := fun r ↦ [r]) hus fun _ _ ↦ testsOf_rulePredicate
    have hgroups : Rule.TestsOf (groups.flatMap (·.node.leaves)) (vs.flatMap (·.node.tests)) :=
      Term.forall₂_of_traverse hvs ih
    rw [leaves, leavesOfTerms_eq, List.flatMap_append, List.map_eq_flatMap]
    exact List.rel_append hrules hgroups

/-- On a record that fits the fields of a group, its predicate has a value. -/
theorem matches?_of_fits {g : Group} {p : Predicate Test} {r : Record} (h : g.predicate = .ok p)
    (hr : r.FitsOn g.fields) : p.matches? r = .ok (p.value (Test.passes r)) :=
  Predicate.matches?_of_fits (testsOf_leaves h) hr

/-! ### Faults -/

theorem joinTerms_later {place : Place} {node : Nat → α → Except Fault (Predicate Test)}
    {f : α → Except Fault (Predicate Test)} {i : Nat} {ts : List (Term α)} {p : Predicate Test}
    (hts : ∀ t ∈ ts, t.connective.isSome = true) (hnode : ∀ t ∈ ts, ∀ j, node j t.node = f t.node) :
    joinTerms place node i (some p) ts =
      (fun us ↦ some (Term.foldLeft .join p us)) <$> Term.traverse f ts := by
  induction ts generalizing i p with
  | nil => rfl
  | cons t ts ih =>
    obtain ⟨x, _ | c⟩ := t
    · simpa using hts _ List.mem_cons_self
    · rw [joinTerms, Term.traverse, hnode _ List.mem_cons_self]
      cases f x with
      | error fault => rfl
      | ok q =>
        have hlater : joinTerms place node (i + 1) (some (.join c p q)) ts =
            (fun us ↦ some (Term.foldLeft .join (.join c p q) us)) <$> Term.traverse f ts :=
          ih (fun u hu ↦ hts u (List.mem_cons_of_mem _ hu))
            fun u hu ↦ hnode u (List.mem_cons_of_mem _ hu)
        simp only [bind, Except.bind, joinNext, hlater]
        cases Term.traverse f ts <;> rfl

/-- Where terms are in sequence, a group of them has the fault of the first that has one. -/
theorem predicateAt_of_sequenced {path : List Nat} {groups : List (Term Group)}
    (h : Term.Sequenced groups)
    (hnode : ∀ t ∈ groups, ∀ path, predicateAt path t.node = t.node.predicate) :
    predicateAt path (mk [] groups) = Term.join <$> Term.traverse predicate groups := by
  have hrules : joinRules path 0 none [] = .ok none := rfl
  simp only [predicateAt, hrules, joinGroups_eq, bind, Except.bind]
  cases groups with
  | nil => rfl
  | cons t ts =>
    obtain ⟨g, c⟩ := t
    obtain ⟨rfl, hts⟩ := h
    have hlater (q : Predicate Test) :
        joinTerms (.group path .groups) (fun j ↦ predicateAt (path ++ [j])) 1 (some q) ts =
          (fun us ↦ some (Term.foldLeft .join q us)) <$> Term.traverse predicate ts :=
      joinTerms_later hts fun t ht j ↦ hnode t (List.mem_cons_of_mem _ ht) (path ++ [j])
    rw [joinTerms, Term.traverse, hnode _ List.mem_cons_self]
    cases g.predicate with
    | error fault => rfl
    | ok q =>
      have hstart : joinNext (.group path .groups) 0 none none q = .ok q := rfl
      simp only [bind, Except.bind, hstart, hlater]
      cases Term.traverse predicate ts <;> rfl

end Group

end SamplingFrame
