import SamplingFrame.Proofs.Group.Predicate
import SamplingFrame.Proofs.Place
import SamplingFrame.Proofs.Rule

/-!
# The checks of a group

A group is gone through in the order in which it is written. Of every rule it is checked whether it
has a test, and of every term, after its contents, whether it continues the sequence of its group.
The fault of a group is that of the first check that fails, and it names the place where the term
in question stands.
-/

namespace SamplingFrame

namespace Group

/-- Where a term stands: at an index of one of the lists of the group that a path leads to. -/
structure Position where
  path : List Nat
  list : TermList
  index : Nat

/-- The list in which a term stands. -/
def Position.place (x : Position) : Place := .group x.path x.list

/-- Something that is looked at in a group. -/
inductive Check where
  /-- Whether a rule has a test. -/
  | rule (rule : Rule)
  /-- Whether the term at a position has no connective if it is the first one of its group, and has
  a connective if it is not. -/
  | sequencing (position : Position) (isFirst : Bool) (connective : Option Connective)

/-- What is wrong if a check fails. -/
def Check.fault? : Check → Option Fault
  | .rule r =>
    match r.test with
    | .ok _ => none
    | .error fault => some fault
  | .sequencing x true (some _) => some (.leadingConnective x.place)
  | .sequencing x false none => some (.missingConnective x.place x.index)
  | .sequencing _ true none | .sequencing _ false (some _) => none

/-- The checks of the terms of one list, the first of which has the given index. No term of the
group stands before the list if it `leads`. -/
def termChecks {α : Type} (path : List Nat) (list : TermList) (contents : Nat → α → List Check)
    (leads : Bool) : Nat → List (Term α) → List Check
  | _, [] => []
  | i, ⟨x, c⟩ :: ts =>
    contents i x ++ .sequencing ⟨path, list, i⟩ (leads && i == 0) c ::
      termChecks path list contents leads (i + 1) ts

mutual

/-- The checks of the group that is reached by a path. -/
def checksAt (path : List Nat) : Group → List Check
  | mk rules groups =>
    termChecks path .rules (fun _ r ↦ [.rule r]) true 0 rules ++
      subgroupChecks path rules.isEmpty 0 groups

/-- The checks of subgroups, the first of which has the given index. -/
def subgroupChecks (path : List Nat) (leads : Bool) : Nat → List (Term Group) → List Check
  | _, [] => []
  | i, ⟨g, c⟩ :: ts =>
    checksAt (path ++ [i]) g ++ .sequencing ⟨path, .groups, i⟩ (leads && i == 0) c ::
      subgroupChecks path leads (i + 1) ts

end

/-- The checks of a whole group. -/
def checks (g : Group) : List Check := checksAt [] g

/-- A check that fails with a fault where all checks before it pass. -/
def FailsFirst (g : Group) (check : Check) (fault : Fault) : Prop :=
  ∃ before after, g.checks = before ++ check :: after ∧
    (∀ c ∈ before, c.fault? = none) ∧ check.fault? = some fault

/-- The group that a path leads to. -/
def descend? : List Nat → Group → Option Group
  | [], g => some g
  | i :: path, g => g.groups[i]?.bind fun t ↦ descend? path t.node

/-- The connectives of the terms in one of the lists of a group. -/
def connectives (g : Group) : TermList → List (Option Connective)
  | .rules => g.rules.map (·.connective)
  | .groups => g.groups.map (·.connective)

/-- Whether no term of a group stands before one of its lists. -/
def leads (g : Group) : TermList → Bool
  | .rules => true
  | .groups => g.rules.isEmpty

variable {α : Type} {path : List Nat} {list : TermList}

theorem subgroupChecks_eq (leads : Bool) (i : Nat) (ts : List (Term Group)) :
    subgroupChecks path leads i ts =
      termChecks path .groups (fun j ↦ checksAt (path ++ [j])) leads i ts := by
  induction ts generalizing i with
  | nil => rw [subgroupChecks]; rfl
  | cons t ts ih => rw [subgroupChecks, termChecks, ih]

/-! ### The first fault -/

/-- A predicate is joined unless the check of the sequence fails. -/
theorem faultOf_joinNext (i : Nat) (before : Option (Predicate Test)) (c : Option Connective)
    (q : Predicate Test) :
    faultOf (joinNext (.group path list) i before c q) =
      (Check.sequencing ⟨path, list, i⟩ before.isNone c).fault? := by
  cases before <;> cases c <;> rfl

theorem isNone_of_joinTerms {place : Place} {node : Nat → α → Except Fault (Predicate Test)}
    {i : Nat} {before after : Option (Predicate Test)} {ts : List (Term α)}
    (h : joinTerms place node i before ts = .ok after) :
    after.isNone = (before.isNone && ts.isEmpty) := by
  induction ts generalizing i before with
  | nil => cases h; simp
  | cons t ts ih =>
    obtain ⟨q, -, h⟩ := bind_eq_ok.mp h
    obtain ⟨p, -, h⟩ := bind_eq_ok.mp h
    simpa using ih h

/-- Terms are joined up to the first check that fails. -/
theorem faultOf_joinTerms {node : Nat → α → Except Fault (Predicate Test)}
    {contents : Nat → α → List Check} {leads : Bool} {i : Nat} {before : Option (Predicate Test)}
    {ts : List (Term α)} (hbefore : before.isNone = (leads && i == 0))
    (hnode : ∀ t ∈ ts, ∀ j,
      faultOf (node j t.node) = (contents j t.node).findSome? Check.fault?) :
    faultOf (joinTerms (.group path list) node i before ts) =
      (termChecks path list contents leads i ts).findSome? Check.fault? := by
  induction ts generalizing i before with
  | nil => rfl
  | cons t ts ih =>
    have hts := fun t ht ↦ hnode t (List.mem_cons_of_mem _ ht)
    have hlater (p : Predicate Test) :
        faultOf (joinTerms (.group path list) node (i + 1) (some p) ts) =
          (termChecks path list contents leads (i + 1) ts).findSome? Check.fault? :=
      ih (by simp) hts
    rw [joinTerms, termChecks, List.findSome?_append, List.findSome?_cons, ← hbefore,
      ← hnode _ List.mem_cons_self]
    refine faultOf_bind fun q _ ↦ ?_
    rw [faultOf_bind fun p _ ↦ hlater p, faultOf_joinNext]
    cases (Check.sequencing ⟨path, list, i⟩ before.isNone t.connective).fault? <;> rfl

theorem faultOf_rulePredicate (r : Rule) :
    faultOf (rulePredicate r) = [Check.rule r].findSome? Check.fault? := by
  cases h : r.test with
  | error fault => simp [rulePredicate, faultOf, Check.fault?, h]
  | ok t => simp [rulePredicate, faultOf, Check.fault?, h]

/-- The fault of a group is that of the first of its checks that fails. -/
theorem faultOf_predicateAt (g : Group) :
    faultOf (predicateAt path g) = (checksAt path g).findSome? Check.fault? := by
  induction g generalizing path with
  | mk rules groups ih =>
    have hrules : faultOf (joinRules path 0 none rules) =
        (termChecks path .rules (fun _ r ↦ [.rule r]) true 0 rules).findSome? Check.fault? := by
      rw [joinRules_eq]
      exact faultOf_joinTerms rfl fun t _ _ ↦ faultOf_rulePredicate t.node
    rw [predicateAt, checksAt, List.findSome?_append, ← hrules]
    refine faultOf_bind fun before hbefore ↦ ?_
    rw [joinRules_eq] at hbefore
    have hgroups : faultOf (joinGroups path 0 before groups) =
        (subgroupChecks path rules.isEmpty 0 groups).findSome? Check.fault? := by
      rw [joinGroups_eq, subgroupChecks_eq]
      refine faultOf_joinTerms ?_ fun t ht j ↦ ih t ht
      simpa using isNone_of_joinTerms hbefore
    rw [← hgroups, faultOf_map]

theorem faultOf_predicate (g : Group) :
    faultOf g.predicate = g.checks.findSome? Check.fault? :=
  faultOf_predicateAt g

/-! ### Where terms stand -/

/-- The check of a sequence is about a term of the list, or belongs to the contents of one. -/
theorem exists_of_mem_termChecks {contents : Nat → α → List Check} {leads : Bool} {i : Nat}
    {ts : List (Term α)} {check : Check} (h : check ∈ termChecks path list contents leads i ts) :
    ∃ k t, ts[k]? = some t ∧ (check ∈ contents (i + k) t.node ∨
      check = .sequencing ⟨path, list, i + k⟩ (leads && i + k == 0) t.connective) := by
  induction ts generalizing i with
  | nil => cases h
  | cons t ts ih =>
    rw [termChecks, List.mem_append, List.mem_cons] at h
    rcases h with h | rfl | h
    · exact ⟨0, t, rfl, .inl h⟩
    · exact ⟨0, t, rfl, .inr rfl⟩
    · obtain ⟨k, u, hu, h⟩ := ih h
      rw [Nat.add_right_comm] at h
      exact ⟨k + 1, u, hu, h⟩

/-- A check of a sequence is about the term at its position. -/
theorem descend?_of_mem_checksAt {x : Position} {isFirst : Bool} {c : Option Connective}
    {g : Group} (h : .sequencing x isFirst c ∈ checksAt path g) :
    ∃ below g', x.path = path ++ below ∧ descend? below g = some g' ∧
      (g'.connectives x.list)[x.index]? = some c ∧
      isFirst = (g'.leads x.list && x.index == 0) := by
  induction g generalizing path with
  | mk rules groups ih =>
    rw [checksAt, subgroupChecks_eq, List.mem_append] at h
    rcases h with h | h
    · obtain ⟨k, t, ht, h | h⟩ := exists_of_mem_termChecks h
      · simp at h
      · cases h
        refine ⟨[], mk rules groups, (List.append_nil path).symm, rfl, ?_, ?_⟩
        · simp [connectives, Group.rules, ht]
        · simp [leads]
    · obtain ⟨k, t, ht, h | h⟩ := exists_of_mem_termChecks h
      · obtain ⟨below, g', hpath, hg', hc⟩ := ih t (List.mem_of_getElem? ht) h
        refine ⟨k :: below, g', ?_, ?_, hc⟩
        · simpa using hpath
        · rw [descend?, Group.groups, ht]
          exact hg'
      · cases h
        refine ⟨[], mk rules groups, (List.append_nil path).symm, rfl, ?_, ?_⟩
        · simp [connectives, Group.groups, ht]
        · simp [leads, Group.rules]

/-- What is found by a check that fails. -/
theorem Check.of_fault? {check : Check} {fault : Fault} (h : check.fault? = some fault) :
    (∃ r, check = .rule r ∧ r.test = .error fault) ∨
    (∃ x c, check = .sequencing x true (some c) ∧ fault = .leadingConnective x.place) ∨
    ∃ x, check = .sequencing x false none ∧ fault = .missingConnective x.place x.index := by
  cases check with
  | rule r =>
    rw [fault?] at h
    split at h
    · cases h
    · next hr =>
      cases h
      exact .inl ⟨r, rfl, hr⟩
  | sequencing x isFirst c =>
    cases isFirst <;> cases c <;> cases h
    · exact .inr (.inr ⟨x, rfl, rfl⟩)
    · exact .inr (.inl ⟨x, _, rfl, rfl⟩)

/-- Only the first term of a group can have a connective too many. -/
theorem sequencing_of_leadingConnective {check : Check} {place : Place}
    (h : check.fault? = some (.leadingConnective place)) :
    ∃ x c, check = .sequencing x true (some c) ∧ x.place = place := by
  rcases Check.of_fault? h with ⟨r, -, hr⟩ | ⟨x, c, rfl, hplace⟩ | ⟨x, -, hplace⟩
  · rcases Rule.fault_of_test hr with h | h | ⟨raw, reason, h⟩ <;> cases h
  · cases hplace
    exact ⟨x, c, rfl, rfl⟩
  · cases hplace

/-- Only a later term of a group can lack a connective. -/
theorem sequencing_of_missingConnective {check : Check} {place : Place} {i : Nat}
    (h : check.fault? = some (.missingConnective place i)) :
    ∃ x, check = .sequencing x false none ∧ x.place = place ∧ x.index = i := by
  rcases Check.of_fault? h with ⟨r, -, hr⟩ | ⟨x, c, -, hplace⟩ | ⟨x, rfl, hplace⟩
  · rcases Rule.fault_of_test hr with h | h | ⟨raw, reason, h⟩ <;> cases h
  · cases hplace
  · cases hplace
    exact ⟨x, rfl, rfl, rfl⟩

/-! ### Faults with their places -/

variable {g : Group} {fault : Fault}

theorem predicate_eq_error_iff :
    g.predicate = .error fault ↔ ∃ check, g.FailsFirst check fault :=
  eq_error_iff_of_faultOf g.faultOf_predicate

/-- A fault is that of a term in the sequence of its group: the first check that fails is that of
the term, which is found by following the text of its place from the root. -/
structure FaultyAt (g : Group) (fault : Fault) (x : Position) (connective : Option Connective) :
    Prop where
  text_eq : x.place.text =
    "root" ++ String.join (x.path.map fun i ↦ ".groups[" ++ toString i ++ "]") ++
      (if x.list = .rules then ".rules" else ".groups")
  first : ∃ g', g.descend? x.path = some g' ∧ (g'.connectives x.list)[x.index]? = some connective ∧
    g.FailsFirst (.sequencing x (g'.leads x.list && x.index == 0) connective) fault

theorem Position.text_place (x : Position) : x.place.text =
    "root" ++ String.join (x.path.map fun i ↦ ".groups[" ++ toString i ++ "]") ++
      (if x.list = .rules then ".rules" else ".groups") := by
  obtain ⟨path, list, i⟩ := x
  rw [place, Place.text, Place.steps_eq_join, String.append_assoc]
  cases list <;> rfl

theorem FailsFirst.faultyAt {x : Position} {isFirst : Bool} {c : Option Connective}
    (h : g.FailsFirst (.sequencing x isFirst c) fault) :
    g.FaultyAt fault x c ∧ (isFirst = true → x.index = 0) := by
  obtain ⟨before, after, hg, -⟩ := id h
  have hmem : .sequencing x isFirst c ∈ checksAt [] g := by
    rw [← checks, hg]
    exact List.mem_append_right _ List.mem_cons_self
  obtain ⟨below, g', hpath, hg', hc, rfl⟩ := descend?_of_mem_checksAt hmem
  obtain rfl : x.path = below := hpath
  refine ⟨⟨x.text_place, g', hg', hc, h⟩, fun hfirst ↦ ?_⟩
  exact eq_of_beq (Bool.and_eq_true_iff.mp hfirst).2

/-- A group has a predicate exactly if all its checks pass, and has the fault of the first check
that fails otherwise. A connective too many or too few is reported with the place of the first term
that is faulty, and different terms have different places. -/
theorem predicate_fails_at_first_check (g : Group) :
    ((∃ p, g.predicate = .ok p) ↔ ∀ check ∈ g.checks, check.fault? = none) ∧
    (∀ fault, g.predicate = .error fault ↔ ∃ check, g.FailsFirst check fault) ∧
    (∀ place, g.predicate = .error (.leadingConnective place) → ∃ x c, x.place = place ∧
      x.index = 0 ∧ g.FaultyAt (.leadingConnective place) x (some c)) ∧
    (∀ place i, g.predicate = .error (.missingConnective place i) → ∃ x, x.place = place ∧
      x.index = i ∧ g.FaultyAt (.missingConnective place i) x none) ∧
    ∀ x y : Position, x ≠ y → (x.place.text, x.index) ≠ (y.place.text, y.index) := by
  refine ⟨?_, fun fault ↦ predicate_eq_error_iff, ?_, ?_, ?_⟩
  · rw [← faultOf_eq_none, faultOf_predicate, List.findSome?_eq_none_iff]
  · intro place h
    obtain ⟨check, hfirst⟩ := predicate_eq_error_iff.mp h
    obtain ⟨-, -, -, -, hfault⟩ := id hfirst
    obtain ⟨x, c, rfl, rfl⟩ := sequencing_of_leadingConnective hfault
    obtain ⟨hfaulty, hindex⟩ := hfirst.faultyAt
    exact ⟨x, c, rfl, hindex rfl, hfaulty⟩
  · intro place i h
    obtain ⟨check, hfirst⟩ := predicate_eq_error_iff.mp h
    obtain ⟨-, -, -, -, hfault⟩ := id hfirst
    obtain ⟨x, rfl, rfl, rfl⟩ := sequencing_of_missingConnective hfault
    exact ⟨x, rfl, rfl, hfirst.faultyAt.1⟩
  · rintro ⟨path, list, i⟩ ⟨path', list', j⟩ hne h
    obtain ⟨htext, rfl : i = j⟩ := Prod.mk.inj h
    obtain ⟨rfl, rfl⟩ := Place.text_group_inj htext
    exact hne rfl

/-- A group in which the second rule of the second subgroup lacks its connective, and a later
subgroup has a rule without a test. -/
def unjoined : Group :=
  .mk [.first (.isOne .employees)]
    [.next .and .empty,
      .next .or (.mk [.first (.isOne .regId), .first (.isOne .parentId)] []),
      .next .and (.mk [.first (.isOne .registrationDate)] [])]

theorem predicate_fails_at_first_check_unjoined :
    unjoined.predicate = .error (.missingConnective (.group [1] .rules) 1) ∧
      ∃ x, x.place = .group [1] .rules ∧ x.index = 1 ∧
        unjoined.FaultyAt (.missingConnective (.group [1] .rules) 1) x none := by
  refine ⟨rfl, ?_⟩
  exact (predicate_fails_at_first_check unjoined).2.2.2.1 _ _ rfl

end Group

end SamplingFrame
