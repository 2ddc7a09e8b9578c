import SamplingFrame.Proofs.Order
import SamplingFrame.Proofs.Rule.Reading

/-!
# The algebra of operators

Rules on one field that differ in their operators belong together. Those that compare with a value
have tests for the same values, and of less, equal and greater exactly one holds. A list stands for
the alternative of its items, and a range for two bounds at once.
-/

namespace SamplingFrame

/-- The operators that compare the value of a field with one other value. -/
def Operator.comparisons : List Operator :=
  [.equal, .notEqual, .greaterThan, .greaterThanOrEqual, .lessThan, .lessThanOrEqual]

namespace Rule

variable {f : Field} {op : Operator} {v : Json} {r : Record} {actual s : Scalar} {o : Ordering}

/-! ### Rules that compare with one value -/

theorem hasTest_scalar_iff (ha : f.allows op = true) (hshape : op.shape = .scalar) :
    HasTest ⟨f, op, v⟩ ↔ ∃ s, Payload.readScalar f.type v = .ok s := by
  rw [hasTest_iff]
  constructor
  · rintro ⟨-, payload, hp⟩
    obtain ⟨s, hs, -⟩ := (Payload.read_scalar_eq_ok_iff hshape).mp hp
    exact ⟨s, hs⟩
  · rintro ⟨s, hs⟩
    exact ⟨ha, _, (Payload.read_scalar_eq_ok_iff hshape).mpr ⟨s, hs, rfl⟩⟩

/-- Ordered fields allow all comparisons, and each of them takes one value. -/
theorem allows_of_mem_comparisons (ha : f.allows .greaterThan = true)
    (hop : op ∈ Operator.comparisons) : f.allows op = true ∧ op.shape = .scalar := by
  have hordered : f.isOrdered = true := ha
  simp only [Operator.comparisons, List.mem_cons, List.not_mem_nil, or_false] at hop
  rcases hop with rfl | rfl | rfl | rfl | rfl | rfl <;>
    simp [Field.allows, hordered, Operator.shape]

/-- The value of a comparison is read off the order of the two values. -/
theorem value?_compares {relation : Relation} (ha : f.allows op = true)
    (hshape : op.shape = .scalar) (hs : Payload.readScalar f.type v = .ok s)
    (hc : Test.criterion? op (.scalar s) = some (.compares relation s)) (hr : r f = some actual)
    (ho : actual.compare? s = some o) :
    value? r ⟨f, op, v⟩ = some (relation.holds o != op.isNegative) := by
  have hp : Payload.read f op v = .ok (.scalar s) := (Payload.read_eq_scalar_iff hshape).mpr hs
  exact value?_of_present ha hp hc hr (Criterion.holds_compares ho relation)

/-- The rule that a field is equal to a value holds of the records that have an equal value. -/
theorem value?_equal (hs : Payload.readScalar f.type v = .ok s) (hr : r f = some actual)
    (hk : actual.kind = s.kind) : value? r ⟨f, .equal, v⟩ = some (actual.same s) := by
  obtain ⟨o, ho⟩ := Option.isSome_iff_exists.mp (Scalar.compare?_isSome_iff.mpr hk)
  rw [value?_compares rfl rfl hs rfl hr ho, Scalar.same, ho]
  cases o <;> rfl

/-- A positive comparison holds of the records that have a value in the right order. -/
theorem value?_compares_eq_true_iff {relation : Relation} (ha : f.allows op = true)
    (hshape : op.shape = .scalar) (hpositive : op.isNegative = false)
    (hs : Payload.readScalar f.type v = .ok s)
    (hc : Test.criterion? op (.scalar s) = some (.compares relation s)) (hr : r.FitsOn [f]) :
    value? r ⟨f, op, v⟩ = some true ↔
      ∃ actual o, r f = some actual ∧ actual.compare? s = some o ∧ relation.holds o = true := by
  cases hf : r f with
  | none =>
    have htest : HasTest ⟨f, op, v⟩ := (hasTest_scalar_iff ha hshape).mpr ⟨s, hs⟩
    rw [value?_of_missing htest hf]
    simp [hpositive]
  | some actual =>
    have hk := (hr f List.mem_cons_self actual hf).trans (Payload.kind_of_readScalar hs).symm
    obtain ⟨o, ho⟩ := Option.isSome_iff_exists.mp (Scalar.compare?_isSome_iff.mpr hk)
    rw [value?_compares ha hshape hs hc hf ho]
    simp [hpositive, ho]

theorem hasTest_equal_iff : HasTest ⟨f, .equal, v⟩ ↔ ∃ s, Payload.readScalar f.type v = .ok s :=
  hasTest_scalar_iff rfl rfl

/-- Of less, equal and greater exactly one holds of a value, and the other comparisons negate
these. -/
theorem exists_trichotomy (ha : f.allows .greaterThan = true)
    (hs : Payload.readScalar f.type v = .ok s) (hr : r f = some actual)
    (hk : actual.kind = s.kind) :
    ∃ less equal greater, value? r ⟨f, .lessThan, v⟩ = some less ∧
      value? r ⟨f, .equal, v⟩ = some equal ∧ value? r ⟨f, .greaterThan, v⟩ = some greater ∧
      [less, equal, greater].count true = 1 ∧
      value? r ⟨f, .greaterThanOrEqual, v⟩ = some (!less) ∧
      value? r ⟨f, .lessThanOrEqual, v⟩ = some (!greater) ∧
      value? r ⟨f, .notEqual, v⟩ = some (!equal) := by
  obtain ⟨o, ho⟩ := Option.isSome_iff_exists.mp (Scalar.compare?_isSome_iff.mpr hk)
  have hvalue {op : Operator} (relation : Relation) (hallows : f.allows op = true)
      (hshape : op.shape = .scalar)
      (hc : Test.criterion? op (.scalar s) = some (.compares relation s)) :
      value? r ⟨f, op, v⟩ = some (relation.holds o != op.isNegative) :=
    value?_compares hallows hshape hs hc hr ho
  cases o with
  | lt =>
    exact ⟨true, false, false, hvalue .less ha rfl rfl, hvalue .equal rfl rfl rfl,
      hvalue .greater ha rfl rfl, rfl, hvalue .greaterOrEqual ha rfl rfl,
      hvalue .lessOrEqual ha rfl rfl, hvalue .equal rfl rfl rfl⟩
  | eq =>
    exact ⟨false, true, false, hvalue .less ha rfl rfl, hvalue .equal rfl rfl rfl,
      hvalue .greater ha rfl rfl, rfl, hvalue .greaterOrEqual ha rfl rfl,
      hvalue .lessOrEqual ha rfl rfl, hvalue .equal rfl rfl rfl⟩
  | gt =>
    exact ⟨false, false, true, hvalue .less ha rfl rfl, hvalue .equal rfl rfl rfl,
      hvalue .greater ha rfl rfl, rfl, hvalue .greaterOrEqual ha rfl rfl,
      hvalue .lessOrEqual ha rfl rfl, hvalue .equal rfl rfl rfl⟩

/-! ### Lists -/

private theorem exists_forall₂_iff {α β : Type} {R : α → β → Prop} {xs : List α} :
    (∃ ys, List.Forall₂ R xs ys) ↔ ∀ x ∈ xs, ∃ y, R x y := by
  induction xs with
  | nil => simp
  | cons x xs ih =>
    rw [List.forall_mem_cons, ← ih]
    constructor
    · rintro ⟨_, hx | ⟨hx, hxs⟩⟩
      exact ⟨⟨_, hx⟩, _, hxs⟩
    · rintro ⟨⟨y, hx⟩, ys, hxs⟩
      exact ⟨y :: ys, .cons hx hxs⟩

/-- A list has a test exactly if it has items and each of them could be asked for alone. -/
theorem hasTest_inList_iff (ha : f.allows .inList = true) {vs : List Json} :
    HasTest ⟨f, .inList, .array vs⟩ ↔ vs ≠ [] ∧ ∀ v ∈ vs, HasTest ⟨f, .equal, v⟩ := by
  simp only [hasTest_equal_iff]
  rw [hasTest_iff, ← exists_forall₂_iff]
  constructor
  · rintro ⟨-, payload, hp⟩
    obtain ⟨hne, ss, hss, -⟩ := (Payload.read_list_eq_ok_iff rfl).mp hp
    exact ⟨hne, ss, hss⟩
  · rintro ⟨hne, ss, hss⟩
    exact ⟨ha, _, (Payload.read_list_eq_ok_iff rfl).mpr ⟨hne, ss, hss, rfl⟩⟩

/-- A value is equal to an item exactly if one of the items, asked for alone, finds it. -/
theorem any_same_iff {vs : List Json} {ss : List Scalar}
    (h : List.Forall₂ (fun v s ↦ Payload.readScalar f.type v = .ok s) vs ss)
    (hr : r f = some actual) (hk : actual.kind = f.kind) :
    (ss.any fun s ↦ actual.same s) = true ↔ ∃ v ∈ vs, value? r ⟨f, .equal, v⟩ = some true := by
  induction h with
  | nil => simp
  | cons hs _ ih =>
    have hkind := hk.trans (Payload.kind_of_readScalar hs).symm
    rw [List.any_cons, Bool.or_eq_true, ih, List.exists_mem_cons_iff, value?_equal hs hr hkind,
      Option.some.injEq]

/-- A list is the alternative of its items. -/
theorem value?_inList {vs : List Json} (h : HasTest ⟨f, .inList, .array vs⟩)
    (hr : r.FitsOn [f]) :
    ∃ b, value? r ⟨f, .inList, .array vs⟩ = some b ∧
      (b = true ↔ ∃ v ∈ vs, value? r ⟨f, .equal, v⟩ = some true) := by
  obtain ⟨ha, payload, hp⟩ := hasTest_iff.mp h
  obtain ⟨hne, ss, hss, rfl⟩ := (Payload.read_list_eq_ok_iff rfl).mp hp
  cases hf : r f with
  | none =>
    refine ⟨false, value?_of_missing h hf, ?_⟩
    simp only [Bool.false_eq_true, false_iff]
    rintro ⟨v, hv, hvalue⟩
    rw [value?_of_missing (((hasTest_inList_iff ha).mp h).2 v hv) hf] at hvalue
    cases hvalue
  | some actual =>
    have hk := hr f List.mem_cons_self actual hf
    have hkinds : ∀ s ∈ ss, actual.kind = s.kind :=
      fun s hs ↦ hk.trans (Payload.kind_of_mem_read hp s hs).symm
    refine ⟨ss.any fun s ↦ actual.same s, ?_, any_same_iff hss hf hk⟩
    rw [value?_of_present ha hp rfl hf (Criterion.holds_oneOf hkinds)]
    exact congrArg some (Bool.bne_false _)

/-! ### Ranges -/

/-- A range has a test exactly if each end could be a bound alone and the lower one is not greater
than the upper one. -/
theorem hasTest_inRange_iff (ha : f.allows .inRange = true) {a b : Json} :
    HasTest ⟨f, .inRange, .array [a, b]⟩ ↔
      HasTest ⟨f, .greaterThanOrEqual, a⟩ ∧ HasTest ⟨f, .lessThanOrEqual, b⟩ ∧
        ∀ l u, Payload.read f .greaterThanOrEqual a = .ok (.scalar l) →
          Payload.read f .lessThanOrEqual b = .ok (.scalar u) → l.compare? u ≠ some .gt := by
  have hlower : f.allows .greaterThanOrEqual = true := ha
  have hupper : f.allows .lessThanOrEqual = true := ha
  rw [hasTest_iff, hasTest_scalar_iff hlower rfl, hasTest_scalar_iff hupper rfl]
  have hlow (l : Scalar) : Payload.read f .greaterThanOrEqual a = .ok (.scalar l) ↔
      Payload.readScalar f.type a = .ok l := Payload.read_eq_scalar_iff rfl
  have hhigh (u : Scalar) : Payload.read f .lessThanOrEqual b = .ok (.scalar u) ↔
      Payload.readScalar f.type b = .ok u := Payload.read_eq_scalar_iff rfl
  simp only [hlow, hhigh]
  constructor
  · rintro ⟨-, payload, hp⟩
    obtain ⟨l, u, hl, hu, hle, -⟩ := (Payload.read_range_eq_ok_iff rfl).mp hp
    refine ⟨⟨l, hl⟩, ⟨u, hu⟩, fun l' u' hl' hu' ↦ ?_⟩
    cases hl.symm.trans hl'
    cases hu.symm.trans hu'
    exact hle
  · rintro ⟨⟨l, hl⟩, ⟨u, hu⟩, hle⟩
    exact ⟨ha, _, (Payload.read_range_eq_ok_iff rfl).mpr ⟨l, u, hl, hu, hle l u hl hu, rfl⟩⟩

section Bounds

variable {a b : Json} {l u : Scalar}

/-- A value is above a lower bound if it is present and not less. -/
theorem value?_lower_iff (ha : f.allows .inRange = true) (hl : Payload.readScalar f.type a = .ok l)
    (hr : r.FitsOn [f]) :
    value? r ⟨f, .greaterThanOrEqual, a⟩ = some true ↔
      ∃ actual o, r f = some actual ∧ actual.compare? l = some o ∧ o ≠ .lt := by
  have h : value? r ⟨f, .greaterThanOrEqual, a⟩ = some true ↔ _ :=
    value?_compares_eq_true_iff ha rfl rfl hl rfl hr
  simpa [Relation.holds] using h

/-- A value is below an upper bound if it is present and not greater. -/
theorem value?_upper_iff (ha : f.allows .inRange = true) (hu : Payload.readScalar f.type b = .ok u)
    (hr : r.FitsOn [f]) :
    value? r ⟨f, .lessThanOrEqual, b⟩ = some true ↔
      ∃ actual o, r f = some actual ∧ actual.compare? u = some o ∧ o ≠ .gt := by
  have h : value? r ⟨f, .lessThanOrEqual, b⟩ = some true ↔ _ :=
    value?_compares_eq_true_iff ha rfl rfl hu rfl hr
  simpa [Relation.holds] using h

/-- A range is both of its bounds at once. -/
theorem value?_inRange (h : HasTest ⟨f, .inRange, .array [a, b]⟩) (hr : r.FitsOn [f]) :
    ∃ m, value? r ⟨f, .inRange, .array [a, b]⟩ = some m ∧
      (m = true ↔ value? r ⟨f, .greaterThanOrEqual, a⟩ = some true ∧
        value? r ⟨f, .lessThanOrEqual, b⟩ = some true) := by
  obtain ⟨ha, payload, hp⟩ := hasTest_iff.mp h
  obtain ⟨l, u, hl, hu, -, rfl⟩ := (Payload.read_range_eq_ok_iff rfl).mp hp
  rw [value?_lower_iff ha hl hr, value?_upper_iff ha hu hr]
  cases hf : r f with
  | none => exact ⟨false, value?_of_missing h hf, by simp⟩
  | some actual =>
    have hk := hr f List.mem_cons_self actual hf
    have hkl := hk.trans (Payload.kind_of_readScalar hl).symm
    have hku := hk.trans (Payload.kind_of_readScalar hu).symm
    obtain ⟨o, ho⟩ := Option.isSome_iff_exists.mp (Scalar.compare?_isSome_iff.mpr hkl)
    obtain ⟨o', ho'⟩ := Option.isSome_iff_exists.mp (Scalar.compare?_isSome_iff.mpr hku)
    refine ⟨o != .lt && o' != .gt, ?_, ?_⟩
    · rw [value?_of_present ha hp rfl hf (Criterion.holds_within ho ho')]
      exact congrArg some (Bool.bne_false _)
    · simp [ho, ho']

/-- No value lies between bounds that are the wrong way round. -/
theorem not_between_of_gt (ha : f.allows .inRange = true)
    (hl : Payload.readScalar f.type a = .ok l) (hu : Payload.readScalar f.type b = .ok u)
    (hgt : l.compare? u = some .gt) (hr : r.FitsOn [f]) :
    ¬(value? r ⟨f, .greaterThanOrEqual, a⟩ = some true ∧
      value? r ⟨f, .lessThanOrEqual, b⟩ = some true) := by
  rw [value?_lower_iff ha hl hr, value?_upper_iff ha hu hr]
  rintro ⟨⟨actual, o, hf, ho, hlower⟩, ⟨actual', o', hf', ho', hupper⟩⟩
  cases hf.symm.trans hf'
  have hswap : l.compare? actual = some o.swap := by
    rw [Scalar.compare?_swap, ho]
    rfl
  have hle : o.swap.isLE = true := by cases o <;> simp_all
  have hle' : o'.isLE = true := by cases o' <;> simp_all
  obtain ⟨o'', hlu, hle''⟩ := Scalar.isLE_trans hswap ho' hle hle'
  rw [hgt] at hlu
  cases hlu
  cases hle''

end Bounds

end Rule

namespace Field

open Rule (HasTest value?)

/-- How the rules on a field whose operators differ belong together, seen from a record. -/
structure OperatorLaws (f : Field) (r : Record) : Prop where
  /-- A missing value passes the negative operators and no others. -/
  missing : r f = none → ∀ op v, HasTest ⟨f, op, v⟩ → value? r ⟨f, op, v⟩ = some op.isNegative
  /-- All comparisons have tests for the same values. -/
  together : f.allows .greaterThan = true → ∀ v, ∀ op ∈ Operator.comparisons,
    ∀ op' ∈ Operator.comparisons, HasTest ⟨f, op, v⟩ → HasTest ⟨f, op', v⟩
  /-- Of less, equal and greater exactly one holds, and the others negate these. -/
  trichotomy : f.allows .greaterThan = true → r f ≠ none → ∀ v, HasTest ⟨f, .equal, v⟩ →
    ∃ less equal greater, value? r ⟨f, .lessThan, v⟩ = some less ∧
      value? r ⟨f, .equal, v⟩ = some equal ∧ value? r ⟨f, .greaterThan, v⟩ = some greater ∧
      [less, equal, greater].count true = 1 ∧
      value? r ⟨f, .greaterThanOrEqual, v⟩ = some (!less) ∧
      value? r ⟨f, .lessThanOrEqual, v⟩ = some (!greater) ∧
      value? r ⟨f, .notEqual, v⟩ = some (!equal)
  /-- A list has a test if it has items and each has a test alone. -/
  list_hasTest : f.allows .inList = true → ∀ vs,
    HasTest ⟨f, .inList, .array vs⟩ ↔ vs ≠ [] ∧ ∀ v ∈ vs, HasTest ⟨f, .equal, v⟩
  /-- A list is the alternative of its items. -/
  list_value : ∀ vs, HasTest ⟨f, .inList, .array vs⟩ →
    ∃ m, value? r ⟨f, .inList, .array vs⟩ = some m ∧
      (m = true ↔ ∃ v ∈ vs, value? r ⟨f, .equal, v⟩ = some true)
  /-- A range has a test if its ends have tests as bounds and are the right way round. -/
  range_hasTest : f.allows .inRange = true → ∀ a b,
    HasTest ⟨f, .inRange, .array [a, b]⟩ ↔
      HasTest ⟨f, .greaterThanOrEqual, a⟩ ∧ HasTest ⟨f, .lessThanOrEqual, b⟩ ∧
        ∀ l u, Payload.read f .greaterThanOrEqual a = .ok (.scalar l) →
          Payload.read f .lessThanOrEqual b = .ok (.scalar u) → l.compare? u ≠ some .gt
  /-- A range is both of its bounds at once. -/
  range_value : ∀ a b, HasTest ⟨f, .inRange, .array [a, b]⟩ →
    ∃ m, value? r ⟨f, .inRange, .array [a, b]⟩ = some m ∧
      (m = true ↔ value? r ⟨f, .greaterThanOrEqual, a⟩ = some true ∧
        value? r ⟨f, .lessThanOrEqual, b⟩ = some true)
  /-- Nothing lies between bounds that are the wrong way round. -/
  range_inverted : f.allows .inRange = true → ∀ a b l u,
    Payload.read f .greaterThanOrEqual a = .ok (.scalar l) →
      Payload.read f .lessThanOrEqual b = .ok (.scalar u) → l.compare? u = some .gt →
        ¬(value? r ⟨f, .greaterThanOrEqual, a⟩ = some true ∧
          value? r ⟨f, .lessThanOrEqual, b⟩ = some true)

/-- On a record in which a field is missing or of its kind, the rules on the field obey the laws of
their operators. -/
theorem operatorLaws_of_fits {f : Field} {r : Record} (h : r.FitsOn [f]) : f.OperatorLaws r where
  missing := fun hr op v htest ↦ Rule.value?_of_missing htest hr
  together := by
    intro ha v op hop op' hop' htest
    obtain ⟨hallows, hshape⟩ := Rule.allows_of_mem_comparisons ha hop
    obtain ⟨hallows', hshape'⟩ := Rule.allows_of_mem_comparisons ha hop'
    exact (Rule.hasTest_scalar_iff hallows' hshape').mpr
      ((Rule.hasTest_scalar_iff hallows hshape).mp htest)
  trichotomy := by
    intro ha hpresent v htest
    obtain ⟨actual, hr⟩ := Option.ne_none_iff_exists'.mp hpresent
    obtain ⟨s, hs⟩ := Rule.hasTest_equal_iff.mp htest
    have hk := (h f List.mem_cons_self actual hr).trans (Payload.kind_of_readScalar hs).symm
    exact Rule.exists_trichotomy ha hs hr hk
  list_hasTest := fun ha vs ↦ Rule.hasTest_inList_iff ha
  list_value := fun vs htest ↦ Rule.value?_inList htest h
  range_hasTest := fun ha a b ↦ Rule.hasTest_inRange_iff ha
  range_value := fun a b htest ↦ Rule.value?_inRange htest h
  range_inverted := by
    intro ha a b l u hl hu hgt
    have hl := (Payload.read_eq_scalar_iff rfl).mp hl
    have hu := (Payload.read_eq_scalar_iff rfl).mp hu
    exact Rule.not_between_of_gt ha hl hu hgt h

/-- A record of a turnover with two decimal places. -/
def soldRecord : Record
  | .turnover => some (.decimal ⟨false, 150, 2, by decide, by decide⟩)
  | _ => none

/-- Bounds of other scales than the value, which are equal to it. -/
theorem operatorLaws_of_fits_turnover :
    soldRecord.FitsOn [.turnover] ∧ OperatorLaws .turnover soldRecord ∧
      HasTest ⟨.turnover, .inRange, .array [.string "1.5", .string "1.500"]⟩ ∧
      value? soldRecord ⟨.turnover, .inRange, .array [.string "1.5", .string "1.500"]⟩ =
        some true := by
  have hfits : soldRecord.FitsOn [.turnover] := by
    refine List.forall_mem_singleton.mpr fun s hs ↦ ?_
    cases hs
    rfl
  have hlaws := operatorLaws_of_fits hfits
  have hlow : value? soldRecord ⟨.turnover, .greaterThanOrEqual, .string "1.5"⟩ = some true := by
    decide +kernel
  have hhigh : value? soldRecord ⟨.turnover, .lessThanOrEqual, .string "1.500"⟩ = some true := by
    decide +kernel
  have htest : HasTest ⟨.turnover, .inRange, .array [.string "1.5", .string "1.500"]⟩ :=
    ⟨_, rfl⟩
  obtain ⟨m, hm, hboth⟩ := hlaws.range_value _ _ htest
  obtain rfl := hboth.mpr ⟨hlow, hhigh⟩
  exact ⟨hfits, hlaws, htest, hm⟩

end Field

end SamplingFrame
