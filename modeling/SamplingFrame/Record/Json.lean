import SamplingFrame.Calendar.Date.Reader
import SamplingFrame.Load.Form
import SamplingFrame.Number.Decimal.Reader
import SamplingFrame.Record

/-!
# Statistical units as documents

How units are written down and loaded. Every attribute has its key; an attribute that is missing or
null is unknown. Decimal numbers and dates are written as text.
-/

namespace SamplingFrame

namespace Attribute

/-- A whole number of 64 bits. -/
def loadInteger : Load Int64
  | .number n =>
    match n.signed? with
    | some i => .ok i
    | none => .error .malformed
  | _ => .error .malformed

/-- The text in which a number is read as a decimal number: floating point numbers stand in
positional notation. -/
def decimalText : Json.Number → List Char
  | .integer n => Whole.render n
  | .double x => x.renderPositional

/-- A decimal number, from text or from a number. -/
def loadDecimal : Load Decimal
  | .string s =>
    match Decimal.readAny s.toList with
    | .ok d => .ok d
    | .error _ => .error .malformed
  | .number n =>
    match Decimal.readPlain (decimalText n) with
    | .ok d => .ok d
    | .error _ => .error .malformed
  | _ => .error .malformed

/-- A date, with blanks between its parts. -/
def loadDate : Load Date
  | .string s =>
    match Date.readLoose? s.toList with
    | some d => .ok d
    | none => .error .malformed
  | _ => .error .malformed

/-- A truth value. -/
def loadBoolean : Load Bool
  | .boolean b => .ok b
  | _ => .error .malformed

/-- The value of an attribute. -/
def load (f : Field) : Load (Attribute f) := fun v =>
  match h : kind f with
  | .text => (Load.text v).map fun s => ⟨.text s, h.symm⟩
  | .integer => (loadInteger v).map fun n => ⟨.integer n, h.symm⟩
  | .decimal => (loadDecimal v).map fun d => ⟨.decimal d, h.symm⟩
  | .date => (loadDate v).map fun d => ⟨.date d, h.symm⟩
  | .boolean => (loadBoolean v).map fun b => ⟨.boolean b, h.symm⟩

end Attribute

/-- A value as it is stored in a unit. -/
def Scalar.toJson : Scalar → Json
  | .text s => .string s
  | .integer n => .number (.integer n.toInt)
  | .boolean b => .boolean b
  | s => .string s.render

namespace StatisticalUnit

/-- The keys of a unit are those of its fields. -/
def form : Form Field where
  keys := Field.all
  name := Field.key
  aliases _ := []

/-- A unit as a document. -/
def toJson (u : StatisticalUnit) : Json :=
  Json.ofMembers (Field.all.map fun f => (f.key, (u.record f).elim .null Scalar.toJson))

/-- The unit that a document is. -/
def load : Load StatisticalUnit := fun v => do
  let parts ← form.read (V := fun f => Option (Attribute f))
    (fun f => Load.optional (Attribute.load f)) v
  return ⟨fun f => (parts.slots f).getD none⟩

end StatisticalUnit

end SamplingFrame
