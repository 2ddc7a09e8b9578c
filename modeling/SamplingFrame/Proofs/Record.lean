import SamplingFrame.Expression.Predicate
import SamplingFrame.Proofs.Calendar.Date
import SamplingFrame.Proofs.Load
import SamplingFrame.Proofs.Number.Binary64
import SamplingFrame.Proofs.Order
import SamplingFrame.Proofs.Rule
import SamplingFrame.Record.Json

/-!
# Rules and units read alike

The value of a rule and the value of an attribute are read in different ways, and each way takes
some spellings that the other refuses. A value that both take is the same value for both: a unit
that was loaded with it is found by the rule that asks for it.
-/

namespace SamplingFrame

/-! ### Loading attributes -/

/-- A value of a given kind, from a document. -/
def Attribute.loadKind : Kind → Load Scalar
  | .text, v => (Load.text v).map .text
  | .integer, v => (loadInteger v).map .integer
  | .decimal, v => (loadDecimal v).map .decimal
  | .date, v => (loadDate v).map .date
  | .boolean, v => (loadBoolean v).map .boolean

/-- An attribute is loaded as a value of its kind. -/
theorem Attribute.map_load (f : Field) (v : Source) :
    (Attribute.load f v).map (·.val) = loadKind f.kind v := by
  rw [← kind_eq]
  unfold Attribute.load
  split <;>
    next hk =>
      rw [map_map]
      exact (congrArg (loadKind · v) hk).symm

namespace StatisticalUnit

theorem find?_key (f : Field) : form.find? f.key = some f := by
  cases f <;> decide

/-- What a unit gives for a field is loaded from the member under the key of the field. -/
theorem loadKind_of_mem {streamed : Bool} {members : List (Option String × Source)}
    {part : Source} {u : StatisticalUnit} {f : Field} {s : Scalar}
    (hload : load (.object streamed members) = .ok u) (hmember : (some f.key, part) ∈ members)
    (hs : u.record f = some s) : Attribute.loadKind f.kind part = .ok s := by
  obtain ⟨parts, hparts, hu⟩ := bind_eq_ok.mp hload
  obtain ⟨slots, hslots, hparts⟩ := bind_eq_ok.mp hparts
  cases hparts
  cases hu
  obtain ⟨x, hx, hslot⟩ := Form.exists_part_of_mem (find?_key f) hmember hslots
  rw [record] at hs
  dsimp only at hs
  rw [hslot, Option.getD_some, Option.map_eq_some_iff] at hs
  obtain ⟨a, rfl, rfl⟩ := hs
  have ha : Attribute.load f part = .ok a := by
    unfold Load.optional at hx
    split at hx
    · cases hx
    · cases h : Attribute.load f part with
      | error failure => rw [h] at hx; cases hx
      | ok b => rw [h] at hx; cases hx; rfl
  rw [← Attribute.map_load, ha]
  rfl

end StatisticalUnit

/-! ### Numbers and dates -/

namespace Payload

/-- Text of a decimal number. -/
theorem compare_of_readAny {cs : List Char} {a b : Decimal}
    (ha : Decimal.readAny (Text.trim cs) = .ok a) (hb : Decimal.readAny cs = .ok b) :
    b.compare a = .eq := by
  rw [Text.trim_of_isTrimmed (Decimal.isSolid_of_readAny hb).isTrimmed, hb] at ha
  rw [Except.ok.inj ha]
  exact Decimal.compare_self a

/-- A decimal number that is given as a number. -/
theorem compare_of_decimalText {n : Json.Number} {a b : Decimal}
    (ha : Decimal.readAny (Text.trim n.render) = .ok a)
    (hb : Decimal.readPlain (Attribute.decimalText n) = .ok b) : b.compare a = .eq := by
  cases n with
  | integer n =>
    exact compare_of_readAny ha (Decimal.readAny_eq_ok_iff.mpr (.inl hb))
  | double x =>
    rw [Json.Number.render, Text.trim_of_isTrimmed x.isSolid_render.isTrimmed] at ha
    exact Binary64.compare_of_render ha hb

theorem date_eq_of_readDate? {cs : List Char} {a b : Date}
    (ha : readDate? (Text.trim cs) = some a) (hb : Date.readLoose? cs = some b) : b = a := by
  have hloose : ∃ rest, Date.scanDashed .loose (Text.trim cs) = some (a, rest) := by
    rcases Option.or_eq_some_iff.mp ha with htight | ⟨-, hstrict⟩
    · unfold Date.readTight? at htight
      split at htight
      · next hscan =>
        cases htight
        exact ⟨[], Date.scanDashed_loose hscan⟩
      · cases htight
    · obtain ⟨t, ht, rfl⟩ := Option.map_eq_some_iff.mp hstrict
      exact Date.scanDashed_of_readStrict? ht
  obtain ⟨rest, hrest⟩ := hloose
  obtain ⟨rest', hscan⟩ := Date.scanDashed_of_trim hrest
  rw [Date.readLoose?, hscan] at hb
  dsimp only at hb
  split at hb
  · exact (Option.some.inj hb).symm
  · cases hb

/-! ### Values -/

variable {type : FieldType} {part : Source} {expected actual : Scalar}

theorem compare?_of_readText {text : String}
    (hcode : type = .code → Text.IsTrimmed text.toList)
    (hexpected : readText type text = .ok expected)
    (hactual : Attribute.loadKind type.kind (.string text) = .ok actual) :
    actual.compare? expected = some .eq := by
  cases type with
  | string =>
    cases hexpected
    cases hactual
    exact Scalar.compare?_self _
  | code =>
    rw [readText, Text.trim_of_isTrimmed (hcode rfl), String.ofList_toList] at hexpected
    cases hactual
    split at hexpected
    · cases hexpected
    · cases hexpected
      exact Scalar.compare?_self _
  | integer | boolean => cases hactual
  | decimal =>
    simp only [readText] at hexpected
    simp only [FieldType.kind, Attribute.loadKind, Attribute.loadDecimal] at hactual
    split at hexpected
    · next ha =>
      cases hexpected
      split at hactual
      · next hb =>
        cases hactual
        exact congrArg some (compare_of_readAny ha hb)
      · cases hactual
    · cases hexpected
  | date =>
    simp only [readText] at hexpected
    simp only [FieldType.kind, Attribute.loadKind, Attribute.loadDate] at hactual
    split at hexpected
    · next ha =>
      cases hexpected
      split at hactual
      · next hb =>
        cases hactual
        rw [date_eq_of_readDate? ha hb]
        exact Scalar.compare?_self _
      · cases hactual
    · cases hexpected

theorem compare?_of_readNumber {n : Json.Number} (hexpected : readNumber type n = .ok expected)
    (hactual : Attribute.loadKind type.kind (.number n) = .ok actual) :
    actual.compare? expected = some .eq := by
  cases type with
  | string | code | boolean => cases hactual
  | date => cases hexpected
  | integer =>
    simp only [readNumber] at hexpected
    simp only [FieldType.kind, Attribute.loadKind, Attribute.loadInteger] at hactual
    split at hexpected
    · next hn =>
      cases hexpected
      rw [hn] at hactual
      cases hactual
      exact Scalar.compare?_self _
    · cases hexpected
  | decimal =>
    simp only [readNumber, readText, String.toList_ofList] at hexpected
    simp only [FieldType.kind, Attribute.loadKind, Attribute.loadDecimal] at hactual
    split at hexpected
    · next ha =>
      cases hexpected
      split at hactual
      · next hb =>
        cases hactual
        exact congrArg some (compare_of_decimalText ha hb)
      · cases hactual
    · cases hexpected

/-- A value that is both the value of a rule and the value of an attribute is the same for both. Of
codes only a rule takes off the blanks. -/
theorem compare?_of_readScalar {v : Json} (hpart : part.toJson? = some v)
    (hcode : type = .code → ∀ text, v = .string text → Text.IsTrimmed text.toList)
    (hexpected : readScalar type v = .ok expected)
    (hactual : Attribute.loadKind type.kind part = .ok actual) :
    actual.compare? expected = some .eq := by
  cases part with
  | null =>
    cases hpart
    cases hexpected
  | boolean b =>
    cases hpart
    simp only [readScalar] at hexpected
    split at hexpected
    · next ht =>
      cases hexpected
      rw [ht] at hactual
      cases hactual
      exact Scalar.compare?_self _
    · cases hexpected
  | number n =>
    cases hpart
    exact compare?_of_readNumber hexpected hactual
  | string text =>
    cases hpart
    exact compare?_of_readText (fun ht ↦ hcode ht text rfl) hexpected hactual
  | array items =>
    obtain ⟨vs, -, rfl⟩ := Option.map_eq_some_iff.mp hpart
    cases hexpected
  | object streamed members =>
    obtain ⟨ms, -, rfl⟩ := Option.map_eq_some_iff.mp hpart
    cases hexpected
  | unusable | cut => cases hpart

end Payload

/-! ### Rules on loaded units -/

namespace Expression

variable {f : Field} {v : Json}

/-- The predicate of a rule that a field is equal to a value, or that it is not. -/
theorem predicate_of_readScalar {s : Scalar} {op : Operator} (hop : op = .equal ∨ op = .notEqual)
    (hs : Payload.readScalar f.type v = .ok s) :
    (rule ⟨f, op, v⟩).predicate = .ok (.test ⟨f, op.isNegative, .compares .equal s⟩) := by
  have hitem : Payload.readItem f op v = .ok s := by rw [Payload.readItem, hs]
  have htest : (Rule.mk f op v).test = .ok ⟨f, op.isNegative, .compares .equal s⟩ := by
    rcases hop with rfl | rfl
    · exact bind_eq_ok.mpr ⟨.scalar s, bind_eq_ok.mpr ⟨s, hitem, rfl⟩, rfl⟩
    · exact bind_eq_ok.mpr ⟨.scalar s, bind_eq_ok.mpr ⟨s, hitem, rfl⟩, rfl⟩
  rw [predicate, htest]
  rfl

theorem exists_scalar_of_predicate {p : Predicate Test}
    (h : (rule ⟨f, .equal, v⟩).predicate = .ok p) : ∃ s, Payload.readScalar f.type v = .ok s := by
  rw [predicate] at h
  obtain ⟨t, ht, -⟩ := bind_eq_ok.mp h
  obtain ⟨payload, hpayload, -⟩ := bind_eq_ok.mp ht
  obtain ⟨s, hs, -⟩ := bind_eq_ok.mp hpayload
  unfold Payload.readItem at hs
  split at hs
  · next hread => exact ⟨_, hread⟩
  · cases hs

/-- A unit that was loaded with a value for a field is found by the rule that the field is equal to
that value, and is not found by the rule that it is not. -/
theorem matches?_of_load {p : Predicate Test} {streamed : Bool}
    {members : List (Option String × Source)} {part : Source} {u : StatisticalUnit}
    (hrule : (rule ⟨f, .equal, v⟩).predicate = .ok p)
    (hload : StatisticalUnit.load (.object streamed members) = .ok u)
    (hmember : (some f.key, part) ∈ members) (hpart : part.toJson? = some v)
    (hpresent : u.record f ≠ none)
    (hcode : f.type = .code → ∀ text, v = .string text → Text.IsTrimmed text.toList) :
    p.matches? u.record = .ok true ∧
      ∃ q, (rule ⟨f, .notEqual, v⟩).predicate = .ok q ∧ q.matches? u.record = .ok false := by
  obtain ⟨expected, hexpected⟩ := exists_scalar_of_predicate hrule
  obtain ⟨actual, hactual⟩ := Option.ne_none_iff_exists'.mp hpresent
  have hsame := Payload.compare?_of_readScalar hpart hcode hexpected
    (StatisticalUnit.loadKind_of_mem hload hmember hactual)
  have hanswer (negated : Bool) :
      Predicate.matches? (.test ⟨f, negated, .compares .equal expected⟩) u.record =
        .ok (!negated) := by
    simp [Predicate.matches?, Predicate.run, Predicate.eval, Test.answer, hactual, Criterion.holds,
      Criterion.order, hsame, bind, Except.bind, pure, Except.pure, Relation.holds]
  rw [predicate_of_readScalar (.inl rfl) hexpected] at hrule
  rw [← Except.ok.inj hrule]
  exact ⟨hanswer false, _, predicate_of_readScalar (.inr rfl) hexpected, hanswer true⟩

/-- A little less than one millionth: the number `2 ^ -20`. -/
def millionth : Binary64 := ⟨false, 4503599627370496, -72⟩

/-- The two readers do not even see the same text. -/
theorem matches?_of_load_millionth :
    String.ofList millionth.render = "9.5367431640625e-7" ∧
      String.ofList millionth.renderPositional = "0.00000095367431640625" ∧
      ∃ p u, (rule ⟨.turnover, .equal, .number (.double millionth)⟩).predicate = .ok p ∧
        StatisticalUnit.load (.object false [(some "turnover", .number (.double millionth))]) =
          .ok u ∧
        u.record .turnover ≠ none ∧
        p.matches? u.record = .ok true ∧
        ∃ q, (rule ⟨.turnover, .notEqual, .number (.double millionth)⟩).predicate = .ok q ∧
          q.matches? u.record = .ok false := by
  refine ⟨by decide +kernel, by decide +kernel, ?_⟩
  have hread : ((Payload.readScalar .decimal (.number (.double millionth))).toOption).isSome := by
    decide +kernel
  have hload : ((StatisticalUnit.load (.object false
      [(some "turnover", .number (.double millionth))])).toOption.bind
        (·.record .turnover)).isSome := by
    decide +kernel
  cases hs : Payload.readScalar .decimal (.number (.double millionth)) with
  | error reason => rw [hs] at hread; cases hread
  | ok s =>
    cases hu : StatisticalUnit.load (.object false
        [(some "turnover", .number (.double millionth))]) with
    | error failure => rw [hu] at hload; cases hload
    | ok u =>
      rw [hu] at hload
      have hpresent : u.record .turnover ≠ none := by
        intro hnone
        have hsome : (u.record .turnover).isSome = true := hload
        rw [hnone] at hsome
        cases hsome
      have hrule : (rule ⟨.turnover, .equal, .number (.double millionth)⟩).predicate =
          .ok (.test ⟨.turnover, false, .compares .equal s⟩) :=
        predicate_of_readScalar (.inl rfl) hs
      exact ⟨_, u, hrule, rfl, hpresent, matches?_of_load hrule hu (List.mem_singleton_self _) rfl
        hpresent nofun⟩

end Expression

end SamplingFrame
