import SamplingFrame.Proofs.Expression.Agreement
import SamplingFrame.Proofs.Spelling

/-!
# Expressions that are read as groups

A group is read from any object: keys that it does not know are skipped, and either of its lists may
be missing. So the document of an expression is never refused as that of a group. It is read as the
group without terms, which selects every record, and the filter that was written is lost unless it
selects every record, too.
-/

namespace SamplingFrame

namespace Group

/-- An object without a key of a group is read as the group without terms. -/
theorem load_of_unknown {members : List (String × Json)}
    (h : ∀ m ∈ members, form.find? m.1 = none) :
    load (.ofJson (.object members)) = .ok .empty := by
  have hobject : (Json.object members).HasMembers members := ⟨members, rfl, .refl _⟩
  have hkeys : ∀ s ∈ members.map (·.1), form.find? s = none := by
    intro s hs
    obtain ⟨m, hm, rfl⟩ := List.mem_map.mp hs
    exact h m hm
  obtain ⟨n, hdepth⟩ : ∃ n, (Source.ofJson (.object members)).depth = n + 1 := by
    rw [Source.ofJson, Source.depth]
    exact ⟨_, rfl⟩
  have hgives : form.Gives (Key.load (loadWithin n)) members Slots.empty := .of_unknown hkeys
  have hstep : loadWithin (n + 1) (.ofJson (.object members)) =
      form.read (Key.load (loadWithin n)) (.ofJson (.object members)) >>= fun parts ↦
        return mk ((parts.slots .rules).getD []) ((parts.slots .groups).getD []) := rfl
  rw [load, hdepth, hstep, hgives.read hobject]
  rfl

end Group

namespace Expression

/-- The document that is written for an expression has no key of a group. -/
theorem exists_members_toJson (e : Expression) :
    ∃ members, e.toJson = .object members ∧ ∀ m ∈ members, Group.form.find? m.1 = none := by
  cases e with
  | rule r =>
    refine ⟨_, by rw [toJson, Rule.toJson], ?_⟩
    simp only [List.forall_mem_cons]
    exact ⟨rfl, rfl, rfl, List.forall_mem_nil _⟩
  | binary left c right =>
    refine ⟨_, by rw [toJson], ?_⟩
    simp only [List.forall_mem_cons]
    exact ⟨rfl, rfl, rfl, List.forall_mem_nil _⟩
  | chain ts =>
    refine ⟨_, by rw [toJson], ?_⟩
    simp only [List.forall_mem_cons]
    exact ⟨rfl, List.forall_mem_nil _⟩

/-- An expression means the same as the group without terms if it selects every record. -/
theorem agrees_empty_iff {e : Expression} {p : Predicate Test} (h : e.predicate = .ok p) :
    e.Agrees .empty ↔ ∀ r : Record, r.FitsOn Field.all → p.matches? r = .ok true := by
  have hempty : Group.empty.predicate = .ok .always := rfl
  constructor
  · rintro (⟨fault, -, hfault, -⟩ | ⟨p', q, hp, hq, hsame⟩)
    · rw [h] at hfault
      cases hfault
    · obtain rfl := Except.ok.inj (h.symm.trans hp)
      obtain rfl := Except.ok.inj (hempty.symm.trans hq)
      exact hsame
  · intro hall
    exact .inr ⟨p, .always, h, hempty, hall⟩

/-- A document of an expression that has a predicate, and no key of a group, is read as a group,
too. That group has a predicate, and it means the same exactly if the expression selects every
record. What is written for an expression is such a document. -/
theorem load_flat_as_group {e : Expression} {p : Predicate Test} (hp : e.predicate = .ok p) :
    (∀ members : List (String × Json), load (.ofJson (.object members)) = .ok e →
      (∀ m ∈ members, Group.form.find? m.1 = none) →
      ∃ g, Group.load (.ofJson (.object members)) = .ok g ∧ g.predicate = .ok .always ∧
        (e.Agrees g ↔ ∀ r : Record, r.FitsOn Field.all → p.matches? r = .ok true)) ∧
    ∃ members, e.toJson = .object members ∧ ∀ m ∈ members, Group.form.find? m.1 = none := by
  refine ⟨fun members _ hkeys ↦ ?_, e.exists_members_toJson⟩
  exact ⟨.empty, Group.load_of_unknown hkeys, rfl, agrees_empty_iff hp⟩

/-! ### A filter that is lost -/

/-- A chain of one clause, which selects the units with one employee. -/
def single : Expression := .chain [.first (.rule (.isOne .employees))]

/-- The members of the document of the chain. -/
def singleMembers : List (String × Json) :=
  [("clauses", .array [.object [("predicate", .object [("field", .string "Employees"),
    ("operator", .string "Equal"), ("value", .number (.integer 1))])]])]

theorem predicate_single :
    single.predicate = .ok (.test ⟨.employees, false, .compares .equal (.integer 1)⟩) := rfl

theorem load_singleMembers : load (.ofJson (.object singleMembers)) = .ok single := by
  have hvalue : ∀ r ∈ single.leaves, r.value.Ordered := by
    intro r hr
    rw [List.mem_singleton.mp hr]
    trivial
  exact loadWithin_of_spelled single.spelled_toJson hvalue (Nat.le_refl _)

theorem find?_singleMembers : ∀ m ∈ singleMembers, Group.form.find? m.1 = none := by
  intro m hm
  rw [List.mem_singleton.mp hm]
  rfl

/-- The chain does not select the unit without employees. -/
theorem exists_unselected :
    ∃ r : Record, r.FitsOn Field.all ∧ ∀ p, single.predicate = .ok p → p.matches? r ≠ .ok true := by
  refine ⟨_, StatisticalUnit.fitsOn .unstaffed Field.all, fun p hp hmatch ↦ ?_⟩
  obtain rfl := Except.ok.inj (predicate_single.symm.trans hp)
  cases hmatch

/-- Not every document that can be read both ways means the same: that of the chain is refused
neither as an expression nor as a group, but as a group it selects every unit. -/
theorem not_agrees_of_load : ¬∀ (members : List (String × Json)) (e : Expression) (g : Group)
    (p : Predicate Test), load (.ofJson (.object members)) = .ok e → e.predicate = .ok p →
      Group.load (.ofJson (.object members)) = .ok g → e.Agrees g := by
  intro h
  have hagrees := h singleMembers single .empty _ load_singleMembers predicate_single
    (Group.load_of_unknown find?_singleMembers)
  obtain ⟨r, hr, hmiss⟩ := exists_unselected
  exact hmiss _ predicate_single ((agrees_empty_iff predicate_single).mp hagrees r hr)

theorem load_flat_as_group_single :
    ∃ p g, single.predicate = .ok p ∧ load (.ofJson (.object singleMembers)) = .ok single ∧
      Group.load (.ofJson (.object singleMembers)) = .ok g ∧ g.predicate = .ok .always ∧
      ¬single.Agrees g := by
  obtain ⟨g, hg, halways, hiff⟩ :=
    (load_flat_as_group predicate_single).1 _ load_singleMembers find?_singleMembers
  obtain ⟨r, hr, hmiss⟩ := exists_unselected
  refine ⟨_, g, predicate_single, load_singleMembers, hg, halways, fun hagrees ↦ ?_⟩
  exact hmiss _ predicate_single (hiff.mp hagrees r hr)

end Expression

end SamplingFrame
