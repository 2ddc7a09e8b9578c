import SamplingFrame.Calendar.Timestamp
import SamplingFrame.Fault
import SamplingFrame.Json.Basic
import SamplingFrame.Scalar

/-!
# Payloads of rules

What the stored value of a rule means for its field and operator. A list may be written as an array
or as one text with commas, a range as an array of two or as one text with a long dash, and each
single value as text or as a number.
-/

namespace SamplingFrame

/-- What a rule compares a field with. -/
inductive Payload where
  | scalar (s : Scalar)
  | list (items : List Scalar)
  | range (low high : Scalar)
  deriving DecidableEq, Repr

namespace Payload

/-- The shape of a payload. -/
def shape : Payload → Shape
  | .scalar _ => .scalar
  | .list _ => .list
  | .range _ _ => .range

/-- The values in a payload. -/
def scalars : Payload → List Scalar
  | .scalar s => [s]
  | .list items => items
  | .range low high => [low, high]

/-- The date of a rule: a date alone, or the date written down in a timestamp. -/
def readDate? (cs : List Char) : Option Date :=
  (Date.readTight? cs).or ((Timestamp.readStrict? cs).map (·.date))

/-- A truth value, as a word in any case or as a digit. -/
def readFlag? (cs : List Char) : Option Bool :=
  match String.ofList (cs.map Char.toLower) with
  | "true" | "1" => some true
  | "false" | "0" => some false
  | _ => none

/-- A single value of a type, from text. Only free strings keep their blanks. -/
def readText (type : FieldType) (text : String) : Except Reason Scalar :=
  let trimmed := Text.trim text.toList
  match type with
  | .string => .ok (.text text)
  | .code => if trimmed.isEmpty then .error .blankCode else .ok (.text (String.ofList trimmed))
  | .integer =>
    match Whole.readSigned trimmed with
    | .ok n => .ok (.integer n)
    | .error fault => .error (.integerText fault)
  | .decimal =>
    match Decimal.readAny trimmed with
    | .ok d => .ok (.decimal d)
    | .error fault => .error (.decimalText fault)
  | .date =>
    match readDate? trimmed with
    | some d => .ok (.date d)
    | none => .error .dateText
  | .boolean =>
    match readFlag? trimmed with
    | some b => .ok (.boolean b)
    | none => .error .flagText

/-- A single value of a type, from a number. -/
def readNumber (type : FieldType) (n : Json.Number) : Except Reason Scalar :=
  match type with
  | .integer =>
    match n.signed? with
    | some i => .ok (.integer i)
    | none => .error .notInteger
  | .boolean =>
    match n with
    | .integer 0 => .ok (.boolean false)
    | .integer 1 => .ok (.boolean true)
    | _ => .error .notFlag
  | .date => .error .dateNotText
  | .string | .code | .decimal => readText type (String.ofList n.render)

/-- A single value of a type. -/
def readScalar (type : FieldType) : Json → Except Reason Scalar
  | .string s => readText type s
  | .number n => readNumber type n
  | .boolean b => if type = .boolean then .ok (.boolean b) else .error .noBoolean
  | .null => .error .null
  | .array _ | .object _ => .error .notScalar

/-- How a stored value is quoted in a fault: a string as it is, anything else as compact text. -/
def rawText : Json → String
  | .string s => s
  | v => String.ofList v.render

/-- The separator of a list in one text. -/
def listSeparator : Char := ','

/-- The separator of a range in one text. -/
def rangeSeparator : Char := '—'

variable (field : Field) (operator : Operator)

/-- The fault of a value that cannot be read. -/
def refuse {α : Type} (raw : Json) (reason : Reason) : Except Fault α :=
  .error (.badPayload field operator (rawText raw) reason)

/-- One value of a payload, with the fault that it gives rise to. -/
def readItem (v : Json) : Except Fault Scalar :=
  match readScalar field.type v with
  | .ok s => .ok s
  | .error reason => refuse field operator v reason

/-- The values of a payload, up to the first that cannot be read. -/
def readItems : List Json → Except Fault (List Scalar)
  | [] => .ok []
  | v :: vs => do
    let s ← readItem field operator v
    let ss ← readItems vs
    return s :: ss

/-- The parts of a text between separators, without the blanks around them. -/
def parts (separator : Char) (text : String) : List Json :=
  (text.toList.splitOn separator).map fun cs => .string (String.ofList (Text.trim cs))

/-- Whether a text holds nothing but blanks. -/
def isBlankText (text : String) : Bool := (Text.trim text.toList).isEmpty

/-- The payload of a list operator. -/
def readList : Json → Except Fault Payload
  | .array [] => .error (.emptyPayload field operator)
  | .array items => do return .list (← readItems field operator items)
  | .string text =>
    if isBlankText text then .error (.emptyPayload field operator)
    else do return .list (← readItems field operator (parts listSeparator text))
  | v => refuse field operator v .notList

/-- The two ends of a range, in their order; `raw` is what is quoted if they are not. -/
def readEnds (raw low high : Json) : Except Fault Payload := do
  let l ← readItem field operator low
  let h ← readItem field operator high
  if l.compare? h = some .gt then refuse field operator raw (.rangeOrder l.render h.render)
  else return .range l h

/-- The payload of a range operator. -/
def readRange (raw : Json) : Except Fault Payload :=
  match raw with
  | .array [] => .error (.emptyPayload field operator)
  | .array [low, high] => readEnds field operator raw low high
  | .array items => refuse field operator raw (.rangeSize items.length)
  | .string text =>
    if isBlankText text then .error (.emptyPayload field operator)
    else match parts rangeSeparator text with
      | [low, high] => readEnds field operator raw low high
      | _ => refuse field operator raw .notRangeText
  | v => refuse field operator v .notRange

/-- The payload that a stored value is for a field and an operator, whether or not the field allows
the operator. -/
def read (raw : Json) : Except Fault Payload :=
  match operator.shape with
  | .scalar => do return .scalar (← readItem field operator raw)
  | .list => readList field operator raw
  | .range => readRange field operator raw

end Payload

end SamplingFrame
