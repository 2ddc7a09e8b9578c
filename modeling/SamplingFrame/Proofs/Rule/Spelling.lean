import SamplingFrame.Proofs.Load
import SamplingFrame.Proofs.Test
import SamplingFrame.Rule.Json

/-!
# Spellings of rules and terms

A field may be given by its name or by its code, some keys have a second spelling, and a connective
that is not there may be left out or be null. All documents of a rule or of a term are loaded as it.
-/

namespace SamplingFrame

/-! ### Names -/

/-- A field is given by its name or by its code. -/
def Field.Spelled (f : Field) (j : Json) : Prop :=
  j = .string f.label ∨ j = .number (.integer f.code)

theorem Field.code_le (f : Field) : f.code ≤ 65535 := by
  cases f <;> decide

theorem Field.load_of_spelled {f : Field} {j : Json} (h : f.Spelled j) :
    Field.load (.ofJson j) = .ok f := by
  rcases h with rfl | rfl
  · rw [Source.ofJson, load, ofLabel?_label]
  · have hbounds : (0 : Int) ≤ f.code ∧ (f.code : Int) ≤ 65535 :=
      ⟨Int.natCast_nonneg _, Int.ofNat_le.mpr f.code_le⟩
    rw [Source.ofJson, load, if_pos hbounds, Int.toNat_natCast, ofCode?_code]

theorem Operator.load_toJson (op : Operator) : Operator.load (.ofJson op.toJson) = .ok op := by
  cases op <;> rfl

theorem Connective.load_toJson (c : Connective) :
    Connective.load (.ofJson c.toJson) = .ok c := by
  cases c <;> rfl

theorem Load.anything_ofJson {v : Json} (h : v.Ordered) : Load.anything (.ofJson v) = .ok v := by
  rw [anything, Source.toJson?_ofJson v h]

/-! ### Rules -/

namespace Rule

/-- The documents of a rule. -/
def Spelled (r : Rule) (j : Json) : Prop :=
  ∃ field, r.field.Spelled field ∧ ∃ key ∈ ["operator", "operation"],
    j.HasMembers [("field", field), (key, r.operator.toJson), ("value", r.value)]

/-- The document that is written is one of them. -/
theorem spelled_toJson (r : Rule) : r.Spelled r.toJson :=
  ⟨_, .inl rfl, _, List.mem_cons_self, _, rfl, .refl _⟩

/-- Every document of a rule is loaded as it. -/
theorem load_of_spelled {r : Rule} {j : Json} (h : r.Spelled j) (hv : r.value.Ordered) :
    Rule.load (.ofJson j) = .ok r := by
  obtain ⟨field, hfield, key, hkey, hj⟩ := h
  have hfind : ∀ s ∈ ["operator", "operation"], form.find? s = some .operator := by decide
  have hgives : form.Gives Key.load
      [("field", field), (key, r.operator.toJson), ("value", r.value)]
      (((Slots.empty.set .value r.value).set .operator r.operator).set .field r.field) := by
    refine .part rfl rfl (Field.load_of_spelled hfield) ?_
    refine .part (hfind key hkey) rfl (Operator.load_toJson r.operator) ?_
    exact .part rfl rfl (Load.anything_ofJson hv) .nil
  rw [load, hgives.read hj]
  rfl

end Rule

/-! ### Terms -/

namespace Term

variable {α : Type}

/-- The member for a connective, if there is one. -/
def ConnectiveSpelled : Option Connective → List (String × Json) → Prop
  | some c, members => ∃ key ∈ ["comparison", "combinator"], members = [(key, c.toJson)]
  | none, members => members = [] ∨ ∃ key ∈ ["comparison", "combinator"], members = [(key, .null)]

/-- The documents of a term whose node has given documents. -/
def Spelled (node : Json → Prop) (c : Option Connective) (j : Json) : Prop :=
  ∃ document, node document ∧ ∃ key ∈ ["predicate", "node"], ∃ members,
    ConnectiveSpelled c members ∧ j.HasMembers ((key, document) :: members)

/-- The document that is written is one of them. -/
theorem spelled_toJson {write : α → Json} {node : Json → Prop} {t : Term α}
    (h : node (write t.node)) : Spelled node t.connective (t.toJson write) := by
  refine ⟨_, h, "predicate", List.mem_cons_self, ?_⟩
  obtain ⟨x, _ | c⟩ := t
  · exact ⟨[], .inl rfl, _, rfl, .refl _⟩
  · exact ⟨_, ⟨"comparison", List.mem_cons_self, rfl⟩, _, rfl, .swap _ _ _⟩

/-- The documents of a list of terms, one for each. -/
def AllSpelled (node : α → Json → Prop) : List (Term α) → List Json → Prop :=
  List.Forall₂ fun t ↦ Spelled (node t.node) t.connective

theorem allSpelled_toJson {write : α → Json} {node : α → Json → Prop} {ts : List (Term α)}
    (h : ∀ t ∈ ts, node t.node (write t.node)) :
    AllSpelled node ts (ts.map (Term.toJson write)) := by
  rw [AllSpelled, List.forall₂_map_right_iff, List.forall₂_same]
  exact fun t ht ↦ spelled_toJson (h t ht)

/-- Documents that are taken one by one with the terms are those of the list. -/
theorem iff_allSpelled {node : α → Json → Prop} {P : List (Term α) → List Json → Prop}
    (hnil : ∀ js, P [] js ↔ js = [])
    (hcons : ∀ t ts js, P (t :: ts) js ↔ ∃ first rest, js = first :: rest ∧
      Spelled (node t.node) t.connective first ∧ P ts rest)
    {ts : List (Term α)} {js : List Json} : P ts js ↔ AllSpelled node ts js := by
  rw [AllSpelled]
  induction ts generalizing js with
  | nil => rw [hnil, List.forall₂_nil_left_iff]
  | cons t ts ih =>
    rw [hcons, List.forall₂_cons_left_iff]
    constructor
    · rintro ⟨first, rest, rfl, hfirst, hrest⟩
      exact ⟨first, rest, hfirst, ih.mp hrest, rfl⟩
    · rintro ⟨first, rest, hfirst, hrest, rfl⟩
      exact ⟨first, rest, rfl, hfirst, ih.mpr hrest⟩

theorem load_connective (c : Connective) :
    Load.optional Connective.load (.ofJson c.toJson) = .ok (some c) := by
  cases c <;> rfl

/-- The members of a term give its connective; none is the same as null. -/
theorem exists_gives_of_connectiveSpelled {load : Load α} {c : Option Connective}
    {members : List (String × Json)} (h : ConnectiveSpelled c members) :
    ∃ parts : Slots Key (Key.Part α), form.Gives (Key.load load) members parts ∧
      parts .node = none ∧ (parts .connective).getD none = c := by
  have hfind : ∀ s ∈ ["comparison", "combinator"], form.find? s = some .connective := by decide
  cases c with
  | some c =>
    obtain ⟨key, hkey, rfl⟩ := h
    exact ⟨_, .part (hfind key hkey) rfl (load_connective c) .nil, rfl, rfl⟩
  | none =>
    rcases h with rfl | ⟨key, hkey, rfl⟩
    · exact ⟨_, .nil, rfl, rfl⟩
    · exact ⟨_, .part (hfind key hkey) rfl rfl .nil, rfl, rfl⟩

/-- Every document of a term is loaded as it, if those of its node are loaded as the node. -/
theorem load_of_spelled {load : Load α} {node : Json → Prop} {t : Term α} {j : Json}
    (h : Spelled node t.connective j) (hnode : ∀ document, node document →
      (Source.ofJson document).depth < (Source.ofJson j).depth →
        load (.ofJson document) = .ok t.node) :
    Term.load load (.ofJson j) = .ok t := by
  obtain ⟨document, hdocument, key, hkey, members, hmembers, hj⟩ := h
  have hfind : ∀ s ∈ ["predicate", "node"], form.find? s = some .node := by decide
  have hdepth : (Source.ofJson document).depth < (Source.ofJson j).depth :=
    hj.depth_lt List.mem_cons_self
  obtain ⟨parts, hgives, hfree, hconnective⟩ := exists_gives_of_connectiveSpelled hmembers
  have hgives : form.Gives (Key.load load) ((key, document) :: members)
      (parts.set .node t.node) :=
    .part (hfind key hkey) hfree (hnode document hdocument hdepth) hgives
  rw [Term.load, hgives.read hj]
  exact congrArg (fun c ↦ Except.ok (Term.mk t.node c)) hconnective

/-- Documents of terms make up an array that is loaded as the terms. -/
theorem load_list_of_spelled {load : Load α} {node : α → Json → Prop} {ts : List (Term α)}
    {js : List Json} (h : AllSpelled node ts js)
    (hnode : ∀ t ∈ ts, ∀ document, node t.node document →
      (Source.ofJson document).depth < (Source.ofJson (.array js)).depth →
        load (.ofJson document) = .ok t.node) :
    Load.list (Term.load load) (.ofJson (.array js)) = .ok ts := by
  have hdepth : ∀ j ∈ js, (Source.ofJson j).depth < (Source.ofJson (.array js)).depth :=
    fun j hj ↦ Source.depth_item_lt hj
  refine Load.list_eq_ok ?_
  generalize (Source.ofJson (.array js)).depth = depth at hnode hdepth
  induction h with
  | nil => exact .nil
  | @cons t j ts js hj _ ih =>
    have hfirst : Term.load load (.ofJson j) = .ok t :=
      load_of_spelled hj fun document hdocument hlt ↦ hnode t List.mem_cons_self document
        hdocument (Nat.lt_trans hlt (hdepth j List.mem_cons_self))
    refine .cons hfirst (ih (fun u hu ↦ hnode u (List.mem_cons_of_mem t hu)) fun i hi ↦ ?_)
    exact hdepth i (List.mem_cons_of_mem j hi)

end Term

end SamplingFrame
