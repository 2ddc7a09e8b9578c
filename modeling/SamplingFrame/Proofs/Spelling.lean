import SamplingFrame.Expression.Json
import SamplingFrame.Group.Json
import SamplingFrame.Proofs.Expression.Predicate
import SamplingFrame.Proofs.Group.Predicate
import SamplingFrame.Proofs.Rule.Spelling

/-!
# Spellings of groups and expressions

Every document of a group is loaded as it, whatever spelling was chosen at each place, and so is
every document of an expression: the documents of its three forms cannot be mistaken for each other.
The documents that are written are among them.
-/

namespace SamplingFrame

/-! ### Groups -/

namespace Group

/-- The member for a list of a group, which may be left out if the list is empty. -/
def ListSpelled {α : Type} (keys : List String) (ts : List (Term α)) (documents : List Json)
    (members : List (String × Json)) : Prop :=
  (ts = [] ∧ members = []) ∨ ∃ key ∈ keys, members = [(key, .array documents)]

mutual

/-- The documents of a group. -/
def Spelled : Group → Json → Prop
  | mk rules groups, j =>
    ∃ ruleDocuments groupDocuments ruleMembers groupMembers,
      Term.AllSpelled Rule.Spelled rules ruleDocuments ∧ SpelledTerms groups groupDocuments ∧
      ListSpelled ["rules"] rules ruleDocuments ruleMembers ∧
      ListSpelled ["groups", "subgroups"] groups groupDocuments groupMembers ∧
      j.HasMembers (ruleMembers ++ groupMembers)

/-- The documents of subgroups. -/
def SpelledTerms : List (Term Group) → List Json → Prop
  | [], documents => documents = []
  | ⟨g, c⟩ :: ts, documents => ∃ first rest, documents = first :: rest ∧
      Term.Spelled (Spelled g) c first ∧ SpelledTerms ts rest

end

theorem spelledTerms_iff {ts : List (Term Group)} {documents : List Json} :
    SpelledTerms ts documents ↔ Term.AllSpelled Spelled ts documents :=
  Term.iff_allSpelled (fun _ ↦ by rw [SpelledTerms]) fun _ _ _ ↦ by rw [SpelledTerms]

/-! ### Writing groups -/

theorem termsToJson_eq (ts : List (Term Group)) :
    termsToJson ts = ts.map (Term.toJson toJson) := by
  induction ts with
  | nil => rw [termsToJson]; rfl
  | cons t ts ih =>
    rw [termsToJson, ih, List.map_cons]
    rfl

/-- The document that is written is one of those of the group. -/
theorem spelled_toJson (g : Group) : g.Spelled g.toJson := by
  induction g with
  | mk rules groups ih =>
    have hrules : Term.AllSpelled Rule.Spelled rules (rules.map (Term.toJson Rule.toJson)) :=
      Term.allSpelled_toJson fun t _ ↦ t.node.spelled_toJson
    have hgroups : SpelledTerms groups (termsToJson groups) := by
      rw [spelledTerms_iff, termsToJson_eq]
      exact Term.allSpelled_toJson ih
    rw [Spelled, toJson]
    refine ⟨_, _, _, _, hrules, hgroups, .inr ⟨_, List.mem_cons_self, rfl⟩,
      .inr ⟨_, List.mem_cons_self, rfl⟩, _, rfl, ?_⟩
    exact .swap _ _ _

/-! ### Loading groups -/

/-- The members of a group give its lists; a list that is left out is empty. -/
theorem exists_gives_of_listSpelled {load : Load Group} {rules : List (Term Rule)}
    {groups : List (Term Group)} {ruleDocuments groupDocuments : List Json}
    {ruleMembers groupMembers : List (String × Json)}
    (hr : ListSpelled ["rules"] rules ruleDocuments ruleMembers)
    (hg : ListSpelled ["groups", "subgroups"] groups groupDocuments groupMembers)
    (hrules : Load.list (Term.load Rule.load) (.ofJson (.array ruleDocuments)) = .ok rules)
    (hgroups : ∀ key, (key, .array groupDocuments) ∈ groupMembers →
      Load.list (Term.load load) (.ofJson (.array groupDocuments)) = .ok groups) :
    ∃ parts : Slots Key Key.Part,
      form.Gives (Key.load load) (ruleMembers ++ groupMembers) parts ∧
        (parts .rules).getD [] = rules ∧ (parts .groups).getD [] = groups := by
  have hfind : ∀ s ∈ ["groups", "subgroups"], form.find? s = some .groups := by decide
  have hgives : ∃ parts : Slots Key Key.Part, form.Gives (Key.load load) groupMembers parts ∧
      parts .rules = none ∧ (parts .groups).getD [] = groups := by
    rcases hg with ⟨rfl, rfl⟩ | ⟨key, hkey, rfl⟩
    · exact ⟨_, .nil, rfl, rfl⟩
    · have hload := hgroups key List.mem_cons_self
      exact ⟨_, .part (hfind key hkey) rfl hload .nil, rfl, rfl⟩
  obtain ⟨parts, hparts, hfree, hrest⟩ := hgives
  rcases hr with ⟨rfl, rfl⟩ | ⟨key, hkey, rfl⟩
  · exact ⟨parts, hparts, by rw [hfree]; rfl, hrest⟩
  · obtain rfl := List.mem_singleton.mp hkey
    exact ⟨_, .part rfl hfree hrules hparts, rfl, hrest⟩

theorem ordered_of_leaves {rules : List (Term Rule)} {groups : List (Term Group)}
    (h : ∀ r ∈ (mk rules groups).leaves, r.value.Ordered) :
    (∀ t ∈ rules, t.node.value.Ordered) ∧
      ∀ t ∈ groups, ∀ r ∈ t.node.leaves, r.value.Ordered := by
  rw [leaves, leavesOfTerms_eq] at h
  constructor
  · intro t ht
    exact h _ (List.mem_append_left _ (List.mem_map_of_mem ht))
  · intro t ht r hr
    exact h r (List.mem_append_right _ (List.mem_flatMap_of_mem ht hr))

/-- A document of a group is loaded as it wherever it may be as deep as it is. -/
theorem loadWithin_of_spelled {g : Group} {j : Json} {n : Nat} (h : g.Spelled j)
    (hv : ∀ r ∈ g.leaves, r.value.Ordered) (hn : (Source.ofJson j).depth ≤ n) :
    loadWithin n (.ofJson j) = .ok g := by
  induction g generalizing j n with
  | mk rules groups ih =>
    obtain ⟨hrules, hgroups⟩ := ordered_of_leaves hv
    rw [Spelled] at h
    obtain ⟨ruleDocuments, groupDocuments, ruleMembers, groupMembers, hr, hg, hrm, hgm, hj⟩ := h
    rw [spelledTerms_iff] at hg
    obtain ⟨m, rfl, hdepth⟩ := hj.exists_eq_add_one hn
    have hrulesLoad :
        Load.list (Term.load Rule.load) (.ofJson (.array ruleDocuments)) = .ok rules :=
      Term.load_list_of_spelled hr fun t ht document hdocument _ ↦
        Rule.load_of_spelled hdocument (hrules t ht)
    have hgroupsLoad (key : String) (hkey : (key, .array groupDocuments) ∈ groupMembers) :
        Load.list (Term.load (loadWithin m)) (.ofJson (.array groupDocuments)) = .ok groups := by
      have hlist := hdepth _ (List.mem_append_right _ hkey)
      exact Term.load_list_of_spelled hg fun t ht document hdocument hlt ↦
        ih t ht hdocument (hgroups t ht) (Nat.le_trans (Nat.le_of_lt hlt) hlist)
    obtain ⟨parts, hparts, hruleList, hgroupList⟩ :=
      exists_gives_of_listSpelled hrm hgm hrulesLoad hgroupsLoad
    have hread := hparts.read hj
    have heq : loadWithin (m + 1) (.ofJson j) =
        form.read (Key.load (loadWithin m)) (.ofJson j) >>= fun parts ↦
          return mk ((parts.slots .rules).getD []) ((parts.slots .groups).getD []) := rfl
    rw [heq, hread, ← hruleList, ← hgroupList]
    rfl

end Group

/-! ### Expressions -/

namespace Expression

mutual

/-- The documents of an expression. -/
def Spelled : Expression → Json → Prop
  | .rule r, j => r.Spelled j
  | .binary left c right, j =>
    ∃ leftDocument rightDocument, Spelled left leftDocument ∧ Spelled right rightDocument ∧
      ∃ key ∈ ["comparison", "combinator"],
        j.HasMembers [("left", leftDocument), (key, c.toJson), ("right", rightDocument)]
  | .chain clauses, j =>
    ∃ documents, SpelledTerms clauses documents ∧ j.HasMembers [("clauses", .array documents)]

/-- The documents of clauses. -/
def SpelledTerms : List (Term Expression) → List Json → Prop
  | [], documents => documents = []
  | ⟨e, c⟩ :: ts, documents => ∃ first rest, documents = first :: rest ∧
      Term.Spelled (Spelled e) c first ∧ SpelledTerms ts rest

end

theorem spelledTerms_iff {ts : List (Term Expression)} {documents : List Json} :
    SpelledTerms ts documents ↔ Term.AllSpelled Spelled ts documents :=
  Term.iff_allSpelled (fun _ ↦ by rw [SpelledTerms]) fun _ _ _ ↦ by rw [SpelledTerms]

/-! ### Writing expressions -/

theorem termsToJson_eq (ts : List (Term Expression)) :
    termsToJson ts = ts.map (Term.toJson toJson) := by
  induction ts with
  | nil => rw [termsToJson]; rfl
  | cons t ts ih =>
    rw [termsToJson, ih, List.map_cons]
    rfl

/-- The document that is written is one of those of the expression. -/
theorem spelled_toJson (e : Expression) : e.Spelled e.toJson := by
  induction e with
  | rule r =>
    rw [Spelled, toJson]
    exact r.spelled_toJson
  | binary left c right hleft hright =>
    rw [Spelled, toJson]
    exact ⟨_, _, hleft, hright, _, List.mem_cons_self, _, rfl, .swap _ _ _⟩
  | chain ts ih =>
    rw [Spelled, toJson]
    refine ⟨_, ?_, _, rfl, .refl _⟩
    rw [spelledTerms_iff, termsToJson_eq]
    exact Term.allSpelled_toJson ih

/-! ### Telling the forms apart -/

section

variable {node : Load Expression} {j : Json} {members : List (String × Json)}

theorem firstOf_of_ok {first : Load Expression} {loads : List (Load Expression)} {v : Source}
    {e : Expression} (h : first v = .ok e) : firstOf (first :: loads) v = .ok e := by
  rw [firstOf, List.findSome?_cons, h]
  rfl

theorem firstOf_of_error {first : Load Expression} {loads : List (Load Expression)} {v : Source}
    (h : ∀ e, first v ≠ .ok e) : firstOf (first :: loads) v = firstOf loads v := by
  rw [firstOf, firstOf, List.findSome?_cons]
  cases hv : first v with
  | ok e => exact absurd hv (h e)
  | error f => rfl

/-- An object without clauses is no chain. -/
theorem loadChain_ne_ok (hj : j.HasMembers members)
    (h : ∀ s ∈ members.map (·.1), chainForm.find? s = none) (e : Expression) :
    loadChain node (.ofJson j) ≠ .ok e := by
  rw [loadChain, (Form.Gives.of_unknown h).readObject hj]
  nofun

/-- An object without sides and a connective is no joined pair. -/
theorem loadBinary_ne_ok (hj : j.HasMembers members)
    (h : ∀ s ∈ members.map (·.1), binaryForm.find? s = none) (e : Expression) :
    loadBinary node (.ofJson j) ≠ .ok e := by
  rw [loadBinary, (Form.Gives.of_unknown h).readObject hj]
  nofun

end

/-! ### Loading expressions -/

section

variable {n : Nat} {j : Json}

theorem loadWithin_rule {r : Rule} (h : r.Spelled j) (hv : r.value.Ordered)
    (hn : (Source.ofJson j).depth ≤ n) : loadWithin n (.ofJson j) = .ok (.rule r) := by
  have hload := Rule.load_of_spelled h hv
  obtain ⟨field, -, key, hkey, hj⟩ := h
  obtain ⟨m, rfl, -⟩ := hj.exists_eq_add_one hn
  have hchain : ∀ s ∈ ["operator", "operation"], ∀ m ∈ ["field", s, "value"],
      chainForm.find? m = none := by decide
  have hbinary : ∀ s ∈ ["operator", "operation"], ∀ m ∈ ["field", s, "value"],
      binaryForm.find? m = none := by decide
  rw [loadWithin, firstOf_of_error (loadChain_ne_ok hj (hchain key hkey)),
    firstOf_of_error (loadBinary_ne_ok hj (hbinary key hkey))]
  exact firstOf_of_ok (congrArg (Except.map Expression.rule) hload)

theorem loadWithin_binary {left right : Expression} {c : Connective}
    {leftDocument rightDocument : Json} {key : String} (hkey : key ∈ ["comparison", "combinator"])
    (hj : j.HasMembers [("left", leftDocument), (key, c.toJson), ("right", rightDocument)])
    (hleft : loadWithin n (.ofJson leftDocument) = .ok left)
    (hright : loadWithin n (.ofJson rightDocument) = .ok right) :
    loadWithin (n + 1) (.ofJson j) = .ok (.binary left c right) := by
  have hchain : ∀ s ∈ ["comparison", "combinator"], ∀ m ∈ ["left", s, "right"],
      chainForm.find? m = none := by decide
  have hfind : ∀ s ∈ ["comparison", "combinator"], binaryForm.find? s = some .connective := by
    decide
  have hgives : binaryForm.Gives (BinaryKey.load (loadWithin n))
      [("left", leftDocument), (key, c.toJson), ("right", rightDocument)]
      (((Slots.empty.set .right right).set .connective c).set .left left) := by
    refine .part rfl rfl hleft ?_
    refine .part (hfind key hkey) rfl (Connective.load_toJson c) ?_
    exact .part rfl rfl hright .nil
  rw [loadWithin, firstOf_of_error (loadChain_ne_ok hj (hchain key hkey))]
  refine firstOf_of_ok ?_
  rw [loadBinary, hgives.readObject hj]
  rfl

theorem loadWithin_chain {clauses : List (Term Expression)} {documents : List Json}
    (hj : j.HasMembers [("clauses", .array documents)])
    (h : Load.list (Term.load (loadWithin n)) (.ofJson (.array documents)) = .ok clauses) :
    loadWithin (n + 1) (.ofJson j) = .ok (.chain clauses) := by
  have hgives : chainForm.Gives (V := fun _ ↦ List (Term Expression))
      (fun _ ↦ Load.list (Term.load (loadWithin n))) [("clauses", .array documents)]
      (Slots.empty.set .clauses clauses) := .part rfl rfl h .nil
  rw [loadWithin]
  refine firstOf_of_ok ?_
  rw [loadChain, hgives.readObject hj]
  rfl

end

/-- A document of an expression is loaded as it wherever it may be as deep as it is. -/
theorem loadWithin_of_spelled {e : Expression} {j : Json} {n : Nat} (h : e.Spelled j)
    (hv : ∀ r ∈ e.leaves, r.value.Ordered) (hn : (Source.ofJson j).depth ≤ n) :
    loadWithin n (.ofJson j) = .ok e := by
  induction e generalizing j n with
  | rule r =>
    rw [Spelled] at h
    have hvalue : r.value.Ordered := hv r (by rw [leaves]; exact List.mem_cons_self)
    exact loadWithin_rule h hvalue hn
  | binary left c right hleft hright =>
    rw [Spelled] at h
    rw [leaves] at hv
    obtain ⟨leftDocument, rightDocument, hl, hr, key, hkey, hj⟩ := h
    obtain ⟨m, rfl, hdepth⟩ := hj.exists_eq_add_one hn
    refine loadWithin_binary hkey hj ?_ ?_
    · exact hleft hl (fun r hr ↦ hv r (List.mem_append_left _ hr)) (hdepth _ List.mem_cons_self)
    · refine hright hr (fun r hr ↦ hv r (List.mem_append_right _ hr)) (hdepth ("right", _) ?_)
      exact List.mem_cons_of_mem _ (List.mem_cons_of_mem _ List.mem_cons_self)
  | chain ts ih =>
    rw [Spelled] at h
    rw [leaves, leavesOfTerms_eq] at hv
    obtain ⟨documents, hdocuments, hj⟩ := h
    obtain ⟨m, rfl, hdepth⟩ := hj.exists_eq_add_one hn
    have hlist := hdepth _ List.mem_cons_self
    rw [spelledTerms_iff] at hdocuments
    refine loadWithin_chain hj (Term.load_list_of_spelled hdocuments ?_)
    intro t ht document hdocument hlt
    exact ih t ht hdocument (fun r hr ↦ hv r (List.mem_flatMap_of_mem ht hr))
      (Nat.le_trans (Nat.le_of_lt hlt) hlist)

end Expression

/-! ### What is written is loaded back -/

/-- Every document of a group is loaded as it, and every document of an expression is, too, in the
same of its three forms; what is written is such a document. The values of rules may be anything
that can be read. -/
theorem load_spelled :
    (∀ g : Group, (∀ r ∈ g.leaves, r.value.Ordered) →
      g.Spelled g.toJson ∧ ∀ j, g.Spelled j → Group.load (.ofJson j) = .ok g) ∧
    (∀ e : Expression, (∀ r ∈ e.leaves, r.value.Ordered) →
      e.Spelled e.toJson ∧ ∀ j, e.Spelled j → Expression.load (.ofJson j) = .ok e) :=
  ⟨fun g hv ↦ ⟨g.spelled_toJson, fun _ hj ↦ Group.loadWithin_of_spelled hj hv (Nat.le_refl _)⟩,
    fun e hv ↦ ⟨e.spelled_toJson, fun _ hj ↦
      Expression.loadWithin_of_spelled hj hv (Nat.le_refl _)⟩⟩

/-! ### A document with other spellings -/

/-- A rule with a list. -/
def Rule.regional : Rule := ⟨.region, .inList, .array [.string "north", .null]⟩

/-- The rule, with its field by code and its operator under the other key. -/
def Rule.regionalDocument : Json :=
  .object [("field", .number (.integer 2)), ("operation", .string "InList"),
    ("value", .array [.string "north", .null])]

theorem Rule.regional_spelled : regional.Spelled regionalDocument :=
  ⟨_, .inr rfl, "operation", by decide, _, rfl, .refl _⟩

/-- A group of a rule and an empty subgroup. -/
def Group.regional : Group := mk [⟨.regional, none⟩] [⟨.empty, some .orNot⟩]

/-- The group, with other keys, a null connective and no lists in the empty subgroup. -/
def Group.regionalDocument : Json :=
  .object [
    ("rules", .array [.object [("combinator", .null), ("node", Rule.regionalDocument)]]),
    ("subgroups", .array [.object [("combinator", .string "OrNot"), ("node", .object [])]])]

/-- A rule that is joined with a chain. -/
def Expression.regional : Expression :=
  .binary (.rule .regional) .and (.chain [⟨.rule .regional, none⟩])

/-- The expression, with other keys. -/
def Expression.regionalDocument : Json :=
  .object [("combinator", .string "And"), ("left", Rule.regionalDocument),
    ("right", .object [("clauses", .array [.object [("node", Rule.regionalDocument)]])])]

theorem load_spelled_regional :
    Group.regional.Spelled Group.regionalDocument ∧
      Group.load (.ofJson Group.regionalDocument) = .ok .regional ∧
      Expression.regional.Spelled Expression.regionalDocument ∧
      Expression.load (.ofJson Expression.regionalDocument) = .ok .regional := by
  have hvalue : Rule.regional.value.Ordered := ⟨trivial, trivial, trivial⟩
  have hgroup : Group.regional.Spelled Group.regionalDocument := by
    refine ⟨_, _, _, _, .cons ?_ .nil, ⟨_, _, rfl, ?_, rfl⟩, .inr ⟨_, List.mem_cons_self, rfl⟩,
      .inr ⟨"subgroups", by decide, rfl⟩, _, rfl, .refl _⟩
    · exact ⟨_, Rule.regional_spelled, "node", by decide, _, .inr ⟨"combinator", by decide, rfl⟩,
        _, rfl, .swap _ _ _⟩
    · exact ⟨_, ⟨[], [], [], [], .nil, rfl, .inl ⟨rfl, rfl⟩, .inl ⟨rfl, rfl⟩, _, rfl, .nil⟩,
        "node", by decide, _, ⟨"combinator", by decide, rfl⟩, _, rfl, .swap _ _ _⟩
  have hexpression : Expression.regional.Spelled Expression.regionalDocument := by
    refine ⟨_, _, Rule.regional_spelled, ⟨_, ⟨_, _, rfl, ?_, rfl⟩, _, rfl, .refl _⟩,
      "combinator", by decide, _, rfl, .swap _ _ _⟩
    exact ⟨_, Rule.regional_spelled, "node", by decide, [], .inl rfl, _, rfl, .refl _⟩
  refine ⟨hgroup, (load_spelled.1 .regional ?_).2 _ hgroup, hexpression,
    (load_spelled.2 .regional ?_).2 _ hexpression⟩
  · intro r hr
    rwa [List.mem_singleton.mp hr]
  · intro r hr
    rcases List.mem_cons.mp hr with rfl | hr
    · exact hvalue
    · rwa [List.mem_singleton.mp hr]

end SamplingFrame
