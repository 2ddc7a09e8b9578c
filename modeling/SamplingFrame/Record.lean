import SamplingFrame.Scalar

/-!
# Records and statistical units

A record gives the value of a field, or none. A statistical unit is a record whose values are of the
kinds that the catalog names.
-/

namespace SamplingFrame

/-- A source of field values. -/
abbrev Record := Field → Option Scalar

/-- The text that shows a field; a missing value has the empty text. -/
def Record.text (r : Record) (f : Field) : String := (r f).elim "" Scalar.render

/-- The kind of the value that a unit stores for a field. -/
def Attribute.kind : Field → Kind
  | .unitType => .text
  | .region => .text
  | .mainActivity => .text
  | .unitStatusId => .integer
  | .turnover => .decimal
  | .turnoverYear => .integer
  | .employees => .integer
  | .employeesYear => .integer
  | .freeEconZone => .boolean
  | .foreignParticipationId => .integer
  | .parentId => .integer
  | .regId => .integer
  | .name => .text
  | .statId => .text
  | .taxRegId => .text
  | .externalId => .text
  | .shortName => .text
  | .telephoneNo => .text
  | .address => .integer
  | .emailAddress => .text
  | .contactPerson => .text
  | .legalFormId => .integer
  | .instSectorCodeId => .integer
  | .registrationDate => .date
  | .statusDate => .date

/-- A value as a unit stores it for a field. -/
abbrev Attribute (f : Field) := { s : Scalar // s.kind = Attribute.kind f }

/-- Units store the kinds of values that the catalog names. -/
theorem Attribute.kind_eq (f : Field) : Attribute.kind f = f.kind := by
  cases f <;> rfl

/-- A legal unit, local unit, enterprise or enterprise group, with those of its attributes that are
known. -/
structure StatisticalUnit where
  /-- The value of an attribute, if it is known. -/
  attribute? : (f : Field) → Option (Attribute f)

namespace StatisticalUnit

/-- The unit of which nothing is known. -/
def unknown : StatisticalUnit := ⟨fun _ => none⟩

/-- A unit as a record. -/
def record (u : StatisticalUnit) : Record := fun f => (u.attribute? f).map (·.val)

/-- A unit never gives a value of the wrong kind. -/
theorem kind_of_record {u : StatisticalUnit} {f : Field} {s : Scalar}
    (h : u.record f = some s) : s.kind = f.kind := by
  simp only [record, Option.map_eq_some_iff] at h
  obtain ⟨a, _, rfl⟩ := h
  rw [← Attribute.kind_eq]
  exact a.property

end StatisticalUnit

end SamplingFrame
