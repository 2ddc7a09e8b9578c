import SamplingFrame.Catalog.Operator

/-!
# Fields of a statistical unit

The catalog of fields: their names and codes, the kind of value each one holds, and the operators
that a rule on it may use. Lists of fields that stand for sets follow the catalog's own order.
-/

namespace SamplingFrame

/-- The kind of a value that a record holds. -/
inductive Kind where
  | text
  | integer
  | decimal
  | date
  | boolean
  deriving DecidableEq, Repr

/-- The word for a kind. -/
def Kind.name : Kind → String
  | .text => "text"
  | .integer => "integer"
  | .decimal => "decimal"
  | .date => "date"
  | .boolean => "boolean"

/-- What the payload of a rule on a field is read as. -/
inductive FieldType where
  | string
  | integer
  | decimal
  | date
  | code
  | boolean
  deriving DecidableEq, Repr

namespace FieldType

/-- The word for a type. -/
def name : FieldType → String
  | .string => "string"
  | .integer => "integer"
  | .decimal => "decimal"
  | .date => "date"
  | .code => "code"
  | .boolean => "boolean"

/-- The kind of the values of a type; codes and free strings are both text. -/
def kind : FieldType → Kind
  | .string | .code => .text
  | .integer => .integer
  | .decimal => .decimal
  | .date => .date
  | .boolean => .boolean

end FieldType

/-- An attribute of a statistical unit that rules and output columns refer to. -/
inductive Field where
  | unitType
  | region
  | mainActivity
  | unitStatusId
  | turnover
  | turnoverYear
  | employees
  | employeesYear
  | freeEconZone
  | foreignParticipationId
  | parentId
  | regId
  | name
  | statId
  | taxRegId
  | externalId
  | shortName
  | telephoneNo
  | address
  | emailAddress
  | contactPerson
  | legalFormId
  | instSectorCodeId
  | registrationDate
  | statusDate
  deriving DecidableEq, Repr

namespace Field

/-- The version of the catalog. -/
def catalogVersion : Nat := 1

/-- Every field, in the order of the catalog. -/
def all : List Field :=
  [.unitType, .region, .mainActivity, .unitStatusId, .turnover, .turnoverYear, .employees,
    .employeesYear, .freeEconZone, .foreignParticipationId, .parentId, .regId, .name, .statId,
    .taxRegId, .externalId, .shortName, .telephoneNo, .address, .emailAddress, .contactPerson,
    .legalFormId, .instSectorCodeId, .registrationDate, .statusDate]

/-- The name under which a field is written down and shown. -/
def label : Field → String
  | .unitType => "UnitType"
  | .region => "Region"
  | .mainActivity => "MainActivity"
  | .unitStatusId => "UnitStatusId"
  | .turnover => "Turnover"
  | .turnoverYear => "TurnoverYear"
  | .employees => "Employees"
  | .employeesYear => "EmployeesYear"
  | .freeEconZone => "FreeEconZone"
  | .foreignParticipationId => "ForeignParticipationId"
  | .parentId => "ParentId"
  | .regId => "RegId"
  | .name => "Name"
  | .statId => "StatId"
  | .taxRegId => "TaxRegId"
  | .externalId => "ExternalId"
  | .shortName => "ShortName"
  | .telephoneNo => "TelephoneNo"
  | .address => "Address"
  | .emailAddress => "EmailAddress"
  | .contactPerson => "ContactPerson"
  | .legalFormId => "LegalFormId"
  | .instSectorCodeId => "InstSectorCodeId"
  | .registrationDate => "RegistrationDate"
  | .statusDate => "StatusDate"

/-- The key under which a stored unit holds the field. -/
def key : Field → String
  | .unitType => "unitType"
  | .region => "region"
  | .mainActivity => "mainActivity"
  | .unitStatusId => "unitStatusId"
  | .turnover => "turnover"
  | .turnoverYear => "turnoverYear"
  | .employees => "employees"
  | .employeesYear => "employeesYear"
  | .freeEconZone => "freeEconZone"
  | .foreignParticipationId => "foreignParticipationId"
  | .parentId => "parentId"
  | .regId => "regId"
  | .name => "name"
  | .statId => "statId"
  | .taxRegId => "taxRegId"
  | .externalId => "externalId"
  | .shortName => "shortName"
  | .telephoneNo => "telephoneNo"
  | .address => "address"
  | .emailAddress => "emailAddress"
  | .contactPerson => "contactPerson"
  | .legalFormId => "legalFormId"
  | .instSectorCodeId => "instSectorCodeId"
  | .registrationDate => "registrationDate"
  | .statusDate => "statusDate"

/-- The number that stands for a field in stored rules. -/
def code : Field → Nat
  | .unitType => 1
  | .region => 2
  | .mainActivity => 3
  | .unitStatusId => 4
  | .turnover => 5
  | .turnoverYear => 6
  | .employees => 7
  | .employeesYear => 8
  | .freeEconZone => 9
  | .foreignParticipationId => 10
  | .parentId => 11
  | .regId => 12
  | .name => 13
  | .statId => 14
  | .taxRegId => 15
  | .externalId => 16
  | .shortName => 17
  | .telephoneNo => 18
  | .address => 19
  | .emailAddress => 20
  | .contactPerson => 21
  | .legalFormId => 22
  | .instSectorCodeId => 23
  | .registrationDate => 31
  | .statusDate => 32

/-- The field of a name. -/
def ofLabel? (s : String) : Option Field := all.find? (·.label == s)

/-- The field of a code. -/
def ofCode? (n : Nat) : Option Field := all.find? (·.code == n)

/-- What a rule's payload on a field is read as. -/
def type : Field → FieldType
  | .unitType | .region | .mainActivity => .code
  | .turnover => .decimal
  | .unitStatusId | .turnoverYear | .employees | .employeesYear | .foreignParticipationId
  | .parentId | .regId | .address | .legalFormId | .instSectorCodeId => .integer
  | .freeEconZone => .boolean
  | .registrationDate | .statusDate => .date
  | .name | .statId | .taxRegId | .externalId | .shortName | .telephoneNo | .emailAddress
  | .contactPerson => .string

/-- The kind of value that a record holds for a field. -/
def kind (f : Field) : Kind := f.type.kind

/-- A measure is a quantity or a year; other integers are identifiers. -/
def isMeasure : Field → Bool
  | .turnover | .turnoverYear | .employees | .employeesYear => true
  | _ => false

/-- Measures and dates are ordered; identifiers, codes and free strings are not. -/
def isOrdered (f : Field) : Bool := f.isMeasure || f.type == .date

/-- Which operators a rule on a field may use: equality everywhere, order and ranges on ordered
fields, lists on all but flags and dates, substrings on free strings. -/
def allows (f : Field) : Operator → Bool
  | .equal | .notEqual => true
  | .greaterThan | .greaterThanOrEqual | .lessThan | .lessThanOrEqual => f.isOrdered
  | .inRange | .notInRange => f.isOrdered
  | .inList | .notInList => f.type != .boolean && f.type != .date
  | .contains | .doesNotContain => f.type == .string

/-- The operators that a rule on a field may use, as a list. -/
def operators (f : Field) : List Operator := Operator.all.filter f.allows

/-- A set of fields, given with repetitions in any order, in the order of the catalog. -/
def inOrder (fs : List Field) : List Field := all.filter (fs.contains ·)

/-- No field is missing from the catalog. -/
theorem mem_all (f : Field) : f ∈ all := by
  cases f <;> decide

/-- The list of operators says the same as the permission. -/
theorem mem_operators {f : Field} {op : Operator} : op ∈ f.operators ↔ f.allows op = true := by
  simp [operators, Operator.mem_all]

/-- Putting a set of fields into order keeps its members. -/
theorem mem_inOrder {f : Field} {fs : List Field} : f ∈ inOrder fs ↔ f ∈ fs := by
  simp [inOrder, mem_all]

/-- Labels tell fields apart. -/
theorem ofLabel?_label (f : Field) : ofLabel? f.label = some f := by
  cases f <;> decide

/-- Codes tell fields apart. -/
theorem ofCode?_code (f : Field) : ofCode? f.code = some f := by
  cases f <;> decide

end Field

end SamplingFrame
