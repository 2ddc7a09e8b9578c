import SamplingFrame.Proofs.Calendar.Written
import SamplingFrame.Proofs.Json.Text
import SamplingFrame.Proofs.Record
import SamplingFrame.Proofs.Scalar
import SamplingFrame.Scan

/-!
# Stored units

A unit is loaded from the document that it is written as, with the same attributes. Every value is
equal to the one that was written, and shown as before; only a zero with a minus in front comes back
without it. No predicate can tell the two units apart.
-/

namespace SamplingFrame

/-! ### Values -/

namespace Scalar

/-- A value is loaded from what it is stored as. -/
theorem loadKind_toJson (s : Scalar) :
    Attribute.loadKind s.kind (.ofJson s.toJson) = .ok s.reread := by
  cases s with
  | text text => rfl
  | boolean b => rfl
  | integer n =>
    have hlt := n.toInt_lt
    have hword : Json.Number.signed? (.integer n.toInt) = some n := by
      rw [Json.Number.signed?, if_pos ⟨n.le_toInt, by omega⟩, Int64.ofInt_toInt]
    simp only [kind, toJson, Source.ofJson, Attribute.loadKind, Attribute.loadInteger, hword]
    rfl
  | decimal d =>
    simp only [kind, toJson, Source.ofJson, Attribute.loadKind, Attribute.loadDecimal, render,
      String.toList_ofList, Decimal.readAny_render]
    rfl
  | date d =>
    simp only [kind, toJson, Source.ofJson, Attribute.loadKind, Attribute.loadDate, render,
      String.toList_ofList, Date.readLoose?_render]
    rfl

end Scalar

/-! ### Objects -/

/-- The object of members under different keys has these members. -/
theorem Json.hasMembers_ofMembers {members : List (String × Json)}
    (h : (members.map (·.1)).Nodup) : (Json.ofMembers members).HasMembers members :=
  ⟨_, rfl, @Source.perm_foldl_insertMember members [] h⟩

/-! ### Units -/

namespace StatisticalUnit

/-- The unit that a stored unit is loaded as. -/
def reread (u : StatisticalUnit) : StatisticalUnit :=
  ⟨fun f ↦ (u.attribute? f).map fun a ↦ ⟨a.val.reread, a.val.kind_reread.trans a.property⟩⟩

theorem record_reread (u : StatisticalUnit) (f : Field) :
    u.reread.record f = (u.record f).map Scalar.reread := by
  rw [record, record, reread, Option.map_map, Option.map_map]
  rfl

/-- The member of a unit for a field. -/
def member (u : StatisticalUnit) (f : Field) : String × Json :=
  (f.key, (u.record f).elim .null Scalar.toJson)

theorem load_attribute {f : Field} (a : Attribute f) :
    Attribute.load f (.ofJson a.val.toJson) =
      .ok ⟨a.val.reread, a.val.kind_reread.trans a.property⟩ := by
  obtain ⟨s, hs⟩ := a
  have hkind : Attribute.loadKind f.kind (.ofJson s.toJson) = .ok s.reread := by
    rw [← Attribute.kind_eq, ← hs, Scalar.loadKind_toJson]
  have hval := (Attribute.map_load f (.ofJson s.toJson)).trans hkind
  cases h : Attribute.load f (.ofJson s.toJson) with
  | error failure =>
    rw [h] at hval
    cases hval
  | ok b =>
    rw [h] at hval
    exact congrArg Except.ok (Subtype.ext (Except.ok.inj hval))

/-- An attribute is loaded from its member, whether or not it is known. -/
theorem load_member (u : StatisticalUnit) (f : Field) :
    Load.optional (Attribute.load f) (.ofJson (u.member f).2) = .ok (u.reread.attribute? f) := by
  simp only [member, record, reread]
  cases u.attribute? f with
  | none => rfl
  | some a =>
    simp only [Option.map_some, Option.elim_some]
    unfold Load.optional
    split
    · next hnull =>
      -- Nothing that is known is stored as null.
      obtain ⟨s, hs⟩ := a
      cases s <;> cases hnull
    · rw [load_attribute]
      rfl

/-- The members of some fields give the attributes of these fields. -/
theorem gives_members (u : StatisticalUnit) (fs : List Field) (h : fs.Nodup) :
    form.Gives (V := fun f ↦ Option (Attribute f)) (fun f ↦ Load.optional (Attribute.load f))
      (fs.map u.member) fun f ↦ if f ∈ fs then some (u.reread.attribute? f) else none := by
  induction fs with
  | nil => exact .nil
  | cons f fs ih =>
    obtain ⟨hnew, hrest⟩ := List.nodup_cons.mp h
    have hparts : (fun g ↦ if g ∈ f :: fs then some (u.reread.attribute? g) else none) =
        Slots.set (fun g ↦ if g ∈ fs then some (u.reread.attribute? g) else none) f
          (u.reread.attribute? f) := by
      funext g
      by_cases hg : f = g
      · subst hg
        rw [Slots.set_self, if_pos List.mem_cons_self]
      · rw [Slots.set_of_ne _ hg]
        simp [Ne.symm hg]
    rw [hparts, List.map_cons]
    exact .part (find?_key f) (if_neg hnew) (u.load_member f) (ih hrest)

/-- The members of a unit, in the order of the catalog. -/
def members (u : StatisticalUnit) : List (String × Json) := Field.all.map u.member

theorem nodup_keys (u : StatisticalUnit) : (u.members.map (·.1)).Nodup := by
  have hkeys : u.members.map (·.1) = Field.all.map Field.key := List.map_map ..
  rw [hkeys]
  decide +kernel

theorem hasMembers_toJson (u : StatisticalUnit) : u.toJson.HasMembers u.members :=
  Json.hasMembers_ofMembers u.nodup_keys

/-- No member of a unit has parts of its own. -/
theorem isPlain_of_mem {u : StatisticalUnit} : ∀ m ∈ u.members, m.2.IsPlain := by
  intro m hm
  obtain ⟨f, -, rfl⟩ := List.mem_map.mp hm
  rw [member]
  cases u.record f with
  | none => trivial
  | some s =>
    cases s with
    | integer n =>
      have hlt := n.toInt_lt
      exact ⟨n.le_toInt, by omega⟩
    | text | decimal | date | boolean => trivial

/-- A unit is loaded from its members, in whatever order they stand. -/
theorem load_of_perm {u : StatisticalUnit} {ms : List (String × Json)} (h : ms.Perm u.members)
    (streamed : Bool) : load (.object streamed (Source.ofMembers ms)) = .ok u.reread := by
  have hgives := u.gives_members Field.all (by decide)
  rw [load, hgives.read_members h]
  simp only [Field.mem_all, if_true]
  rfl

/-- A unit is loaded from an object with its members, and from the text of that object. -/
theorem load_of_hasMembers {u : StatisticalUnit} {j : Json} (h : j.HasMembers u.members) :
    load (.ofJson j) = .ok u.reread ∧
      ∃ source, Source.ofText j.render = (source, true) ∧ load source = .ok u.reread := by
  obtain ⟨ms, rfl, hms⟩ := h
  have hplain : ∀ m ∈ ms, m.2.IsPlain := fun m hm ↦ isPlain_of_mem m (hms.subset hm)
  constructor
  · rw [Source.ofJson]
    exact load_of_perm hms false
  · exact ⟨_, Source.ofText_render hplain, load_of_perm hms true⟩

end StatisticalUnit

/-! ### Records -/

namespace Criterion

variable {f : Field}

theorem order_reread (s e : Scalar) : order f s.reread e = order f s e := by
  rw [order, order, Scalar.compare?_reread, Scalar.kind_reread]

/-- No criterion tells a value from the one that is read back. -/
theorem holds_reread (s : Scalar) (c : Criterion) : c.holds f s.reread = c.holds f s := by
  cases c with
  | compares relation e => rw [holds, holds, order_reread]
  | oneOf items =>
    rw [holds, holds]
    induction items with
    | nil => rfl
    | cons e items ih => rw [isOneOf, isOneOf, order_reread, ih]
  | within low high => rw [holds, holds, order_reread, order_reread]
  | contains needle => cases s <;> rfl

end Criterion

namespace Record

/-- Whether a record has a zero with a minus in front for a field. -/
def HoldsSignedZero (r : Record) (f : Field) : Prop := ∃ s, r f = some s ∧ s.IsSignedZero

variable {r r' : Record}

/-- A test answers as before. -/
theorem answer_reread (h : ∀ f, r' f = (r f).map Scalar.reread) (t : Test) :
    t.answer r' = t.answer r := by
  rw [Test.answer, Test.answer, h]
  cases r t.field with
  | none => rfl
  | some s =>
    simp only [Option.map_some]
    rw [Criterion.holds_reread]

theorem text_reread (h : ∀ f, r' f = (r f).map Scalar.reread) {f : Field}
    (hf : ¬ r.HoldsSignedZero f) : r'.text f = r.text f := by
  rw [text, text, h]
  cases hr : r f with
  | none => rfl
  | some s =>
    rw [Option.map_some, Scalar.reread_eq_self fun hs ↦ hf ⟨s, hr, hs⟩]

theorem text_of_holdsSignedZero (h : ∀ f, r' f = (r f).map Scalar.reread) {f : Field}
    (hf : r.HoldsSignedZero f) : r.text f = "-" ++ r'.text f := by
  obtain ⟨s, hr, hs⟩ := hf
  rw [text, text, h, hr]
  exact Scalar.render_of_isSignedZero hs

end Record

namespace StatisticalUnit

/-- What a unit that was read back has in common with the one that was written. -/
structure Restores (u u' : StatisticalUnit) : Prop where
  present : ∀ f, u'.record f = none ↔ u.record f = none
  /-- Values are equal to those that were written. -/
  equal : ∀ f s s', u.record f = some s → u'.record f = some s' → s'.compare? s = some .eq
  text : ∀ f, ¬ u.record.HoldsSignedZero f → u'.record.text f = u.record.text f
  /-- Only the sign of a zero is lost. -/
  text_of_signedZero : ∀ f, u.record.HoldsSignedZero f →
    u.record.text f = "-" ++ u'.record.text f
  /-- Every frame selects both units or none of them, and reads the same fields for that. -/
  matches? : ∀ compiled : CompiledFrame,
    compiled.predicate.matches? u'.record = compiled.predicate.matches? u.record
  reads : ∀ compiled : CompiledFrame,
    compiled.predicate.reads u'.record = compiled.predicate.reads u.record
  /-- The same row shows both units, if there is no zero with a sign in a column. -/
  row : ∀ compiled : CompiledFrame,
    (∀ f ∈ compiled.frame.columns, ¬ u.record.HoldsSignedZero f) →
      u'.record.row compiled.frame.columns = u.record.row compiled.frame.columns

theorem restores_reread (u : StatisticalUnit) : u.Restores u.reread := by
  have hrecord := u.record_reread
  have hrun (p : Predicate Test) : p.run u.reread.record = p.run u.record :=
    congrArg p.eval (funext (Record.answer_reread hrecord))
  refine ⟨fun f ↦ ?_, fun f s s' hs hs' ↦ ?_, fun f ↦ Record.text_reread hrecord,
    fun f ↦ Record.text_of_holdsSignedZero hrecord, fun compiled ↦ ?_, fun compiled ↦ ?_,
    fun compiled hcolumns ↦ ?_⟩
  · rw [hrecord, Option.map_eq_none_iff]
  · rw [hrecord, hs] at hs'
    obtain rfl := Option.some.inj hs'
    rw [Scalar.compare?_reread, Scalar.compare?_self]
  · rw [Predicate.matches?, Predicate.matches?, hrun]
  · rw [Predicate.reads, Predicate.reads, hrun]
  · refine List.map_congr_left fun f hf ↦ ?_
    rw [Record.text_reread hrecord (hcolumns f (Field.mem_inOrder.mp hf))]

/-- A unit is loaded from the document that it is written as, and from the text of this document,
whatever the order of the members is. It has the same attributes with equal values, and is
selected and shown as before, except that a zero shows no sign any more. -/
theorem exists_restores (u : StatisticalUnit) :
    ∃ u', u.Restores u' ∧ load (.ofJson u.toJson) = .ok u' ∧
      ∀ j, j.HasMembers u.members → load (.ofJson j) = .ok u' ∧
        ∃ source, Source.ofText j.render = (source, true) ∧ load source = .ok u' :=
  ⟨u.reread, u.restores_reread, (load_of_hasMembers u.hasMembers_toJson).1,
    fun _ ↦ load_of_hasMembers⟩

/-- A unit whose turnover was rounded to zero from below. -/
def roundedAway : StatisticalUnit where
  attribute?
    | .turnover => some ⟨.decimal (.minusZero 28 (by decide)), rfl⟩
    | _ => none

theorem exists_restores_roundedAway :
    roundedAway.record.text .turnover = "-0.0000000000000000000000000000" ∧
      ∃ u', roundedAway.Restores u' ∧
        roundedAway.record.text .turnover = "-" ++ u'.record.text .turnover ∧
        load (.ofJson (.object roundedAway.members.reverse)) = .ok u' := by
  have hzero : roundedAway.record.HoldsSignedZero .turnover := ⟨_, rfl, rfl, rfl⟩
  obtain ⟨u', hrestores, -, hload⟩ := exists_restores roundedAway
  refine ⟨by decide +kernel, u', hrestores, hrestores.text_of_signedZero _ hzero, ?_⟩
  exact (hload _ ⟨_, rfl, List.reverse_perm _⟩).1

/-- Such a unit is loaded from a document, but is not shown again as it was. -/
theorem not_shown_again_roundedAway :
    load (.ofJson (.object [("turnover", .string "-0.4e-28")])) = .ok roundedAway ∧
      ¬ ∃ u', load (.ofJson roundedAway.toJson) = .ok u' ∧
        ∀ f, u'.record.text f = roundedAway.record.text f := by
  constructor
  · have hturnover : Load.optional (Attribute.load .turnover) (.ofJson (.string "-0.4e-28")) =
        .ok (roundedAway.attribute? .turnover) := by
      decide +kernel
    have hgives : form.Gives (V := fun f ↦ Option (Attribute f))
        (fun f ↦ Load.optional (Attribute.load f)) [("turnover", .string "-0.4e-28")]
        (Slots.empty.set .turnover (roundedAway.attribute? .turnover)) :=
      .part (find?_key .turnover) rfl hturnover .nil
    rw [load, hgives.read ⟨_, rfl, .refl _⟩]
    refine congrArg Except.ok (congrArg StatisticalUnit.mk (funext fun f ↦ ?_))
    cases f <;> rfl
  · rintro ⟨u', hload, htext⟩
    obtain rfl := Except.ok.inj (hload.symm.trans (load_of_hasMembers (hasMembers_toJson _)).1)
    have hne : roundedAway.reread.record.text .turnover ≠ roundedAway.record.text .turnover := by
      decide +kernel
    exact hne (htext .turnover)

end StatisticalUnit

end SamplingFrame
