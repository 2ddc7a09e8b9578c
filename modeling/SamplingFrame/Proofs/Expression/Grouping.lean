import SamplingFrame.Proofs.Expression.Predicate
import SamplingFrame.Proofs.Group.Predicate

/-!
# Expressions as groups

Precedence can be written out with groups: each run of a chain becomes a subgroup. An expression
whose chains are in sequence has the same predicate as its group, or the same fault.
-/

namespace SamplingFrame

namespace Expression

mutual

/-- An expression as a group. A chain becomes the group of its runs, each of them a group. -/
def toGroup : Expression → Group
  | .rule r => .mk [.first r] []
  | .binary left c right => .mk [] [.first (toGroup left), .next c (toGroup right)]
  | .chain ts => .mk [] ((Term.runs (termsToGroups ts)).map (Term.map (Group.mk [])))

/-- The clauses of a chain as groups. -/
def termsToGroups : List (Term Expression) → List (Term Group)
  | [] => []
  | ⟨e, c⟩ :: ts => ⟨toGroup e, c⟩ :: termsToGroups ts

end

/-- Every chain, at any depth, has clauses, none of them with a connective too many or too few. -/
inductive InSequence : Expression → Prop
  | rule (leaf : Rule) : InSequence (.rule leaf)
  | binary {left right : Expression} (c : Connective) (hl : InSequence left)
      (hr : InSequence right) : InSequence (.binary left c right)
  | chain {ts : List (Term Expression)} (hne : ts ≠ []) (hs : Term.Sequenced ts)
      (hts : ∀ t ∈ ts, InSequence t.node) : InSequence (.chain ts)

theorem termsToGroups_eq (ts : List (Term Expression)) :
    termsToGroups ts = ts.map (Term.map toGroup) := by
  induction ts with
  | nil => rfl
  | cons t ts ih => rw [termsToGroups, ih]; rfl

/-- A group of runs has the predicate that is joined run by run. -/
theorem predicateAt_runs {path : List Nat} {gs : List (Term Group)} (h : Term.Sequenced gs)
    (hgs : ∀ t ∈ gs, ∀ path, Group.predicateAt path t.node = t.node.predicate) :
    Group.predicateAt path (.mk [] ((Term.runs gs).map (Term.map (Group.mk [])))) =
      Term.byRuns Term.join <$> Term.traverse Group.predicate gs := by
  have hcut := Term.isCut_runs h
  have hrun (run) (hr : run ∈ Term.runs gs) (path : List Nat) :
      Group.predicateAt path (.mk [] run.node) =
        Term.join <$> Term.traverse Group.predicate run.node := by
    refine Group.predicateAt_of_sequenced (hcut.isRun run hr).1 fun t ht path ↦ ?_
    obtain ⟨u, hu, hut⟩ := Term.exists_mem_of_mem_runs hr ht
    rw [← hut]
    exact hgs u hu path
  have hruns : Term.traverse (Group.predicate ∘ Group.mk []) (Term.runs gs) =
      Term.traverse (fun us ↦ Term.join <$> Term.traverse Group.predicate us) (Term.runs gs) :=
    Term.traverse_congr fun run hr ↦ hrun run hr []
  rw [Group.predicateAt_of_sequenced (Term.sequenced_map hcut.sequenced), Term.traverse_map, hruns,
    Term.traverse_fmap, Term.traverse_runs]
  -- Whichever clause has a fault, both sides stop at the first.
  · cases Term.traverse Group.predicate gs <;> rfl
  · intro t ht path
    obtain ⟨run, hr, rfl⟩ := List.mem_map.mp ht
    exact (hrun run hr path).trans (hrun run hr []).symm

/-- An expression in sequence has the predicate of its group, or the same fault, wherever the group
stands. -/
theorem predicateAt_toGroup {e : Expression} (h : e.InSequence) (path : List Nat) :
    Group.predicateAt path e.toGroup = e.predicate := by
  induction h generalizing path with
  | rule leaf =>
    simp only [toGroup, predicate, Group.predicateAt, Group.joinRules, Term.first]
    cases leaf.test <;> rfl
  | @binary left right c _ _ ihl ihr =>
    rw [toGroup, predicate, Group.predicateAt_of_sequenced]
    · simp only [Term.traverse, Term.first, Term.next, Group.predicate, ihl, ihr]
      cases left.predicate with
      | error fault => rfl
      | ok p => cases right.predicate <;> rfl
    · simp [Term.Sequenced, Term.first, Term.next]
    · intro t ht path
      rcases List.mem_pair.mp ht with rfl | rfl
      · exact (ihl path).trans (ihl []).symm
      · exact (ihr path).trans (ihr []).symm
  | @chain ts hne hs _ ih =>
    obtain ⟨t, ts, rfl⟩ := List.exists_cons_of_ne_nil hne
    have hgs : ∀ g ∈ (t :: ts).map (Term.map toGroup), ∀ path,
        Group.predicateAt path g.node = g.node.predicate := by
      intro g hg path
      obtain ⟨u, hu, rfl⟩ := List.mem_map.mp hg
      exact (ih u hu path).trans (ih u hu []).symm
    rw [toGroup, termsToGroups_eq, predicateAt_runs (Term.sequenced_map hs) hgs, predicate_chain hs,
      Term.traverse_map]
    exact congrArg (Term.byRuns Term.join <$> ·) (Term.traverse_congr fun u hu ↦ ih u hu [])

/-- An expression in sequence and its group have a fault in common, or predicates of the same
outcome and the same reads on every record. -/
theorem predicate_toGroup {e : Expression} (h : e.InSequence) :
    (∃ fault, e.predicate = .error fault ∧ e.toGroup.predicate = .error fault) ∨
      ∃ p q, e.predicate = .ok p ∧ e.toGroup.predicate = .ok q ∧
        ∀ r, q.matches? r = p.matches? r ∧ q.reads r = p.reads r := by
  have hsame : e.toGroup.predicate = e.predicate := predicateAt_toGroup h []
  rw [hsame]
  cases e.predicate with
  | error fault => exact .inl ⟨fault, rfl, rfl⟩
  | ok p => exact .inr ⟨p, p, rfl, rfl, fun r ↦ ⟨rfl, rfl⟩⟩

/-- The mixed chain becomes a group of two groups, the second one negated as a whole. -/
theorem predicate_toGroup_mixed :
    mixed.InSequence ∧
      mixed.toGroup = .mk [] [.first (.mk [] [.first (.mk [.first (.isOne .employees)] [])]),
        .next .orNot (.mk [] [
          .first (.mk [] [.first (.mk [.first (.isOne .employeesYear)] []),
            .next .or (.mk [.first (.isOne .turnoverYear)] [])]),
          .next .and (.mk [] [.first (.mk [] [.first (.mk [.first (.isOne .regId)] []),
            .next .andNot (.mk [.first (.isOne .parentId)] [])])])])] ∧
      ((∃ fault, mixed.predicate = .error fault ∧ mixed.toGroup.predicate = .error fault) ∨
        ∃ p q, mixed.predicate = .ok p ∧ mixed.toGroup.predicate = .ok q ∧
          ∀ r, q.matches? r = p.matches? r ∧ q.reads r = p.reads r) := by
  have hchain : ∀ t ∈ [Term.first (rule (.isOne .regId)), .next .andNot (rule (.isOne .parentId))],
      t.node.InSequence := by
    simp [Term.first, Term.next, InSequence.rule]
  have h : mixed.InSequence := by
    refine .chain (by simp) (by simp [Term.Sequenced, Term.first, Term.next]) ?_
    intro t ht
    simp only [List.mem_cons, List.not_mem_nil, or_false] at ht
    rcases ht with rfl | rfl | rfl
    · exact .rule _
    · exact .binary .or (.rule _) (.rule _)
    · exact .chain (by simp) (by simp [Term.Sequenced, Term.first, Term.next]) hchain
  refine ⟨h, ?_, predicate_toGroup h⟩
  cbv

end Expression

end SamplingFrame
