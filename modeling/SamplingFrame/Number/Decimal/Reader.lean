import SamplingFrame.Number.Decimal

/-!
# Reading decimal numbers

Plain notation, scientific notation, and the two ways in which they are tried one after the other.
Plain notation is read from left to right; places that do not fit are dropped, and the first
dropped digit alone decides the rounding.
-/

namespace SamplingFrame.Decimal

/-- Why a text is not a decimal number. -/
inductive Fault where
  | empty
  | unknownCharacter
  | secondPoint
  | separatorTooEarly
  | noDigits
  | tooManyDigits
  | roundedPastLimit
  | notScientific
  | scaleTooLarge (scale : Nat)
  | tooLarge
  deriving DecidableEq, Repr

/-- The wording of a fault. -/
def Fault.message : Fault → String
  | .empty => "Invalid decimal: empty"
  | .unknownCharacter => "Invalid decimal: unknown character"
  | .secondPoint => "Invalid decimal: two decimal points"
  | .separatorTooEarly => "Invalid decimal: must start lead with a number"
  | .noDigits => "Invalid decimal: no digits found"
  | .tooManyDigits => "Invalid decimal: overflow from too many digits"
  | .roundedPastLimit => "Invalid decimal: overflow from mantissa after rounding"
  | .notScientific => "Failed to parse"
  | .scaleTooLarge n =>
    "Scale exceeds the maximum precision allowed: " ++ String.ofList (Whole.digits n) ++ " > 28"
  | .tooLarge => "Number exceeds maximum value that can be represented."

/-- How far a plain number has been read. -/
structure Progress where
  /-- The digits so far, as one number. -/
  coefficient : Nat := 0
  /-- How many of them stand after the point. -/
  scale : Nat := 0
  /-- Whether the point has been met. -/
  seenPoint : Bool := false
  /-- Whether a digit has been met. -/
  seenDigit : Bool := false
  /-- Whether the digits had outgrown a 64-bit word before the last place was reached. -/
  wide : Bool := false
  deriving DecidableEq, Repr

/-- From this coefficient on a number counts as wide. -/
def wideFrom : Nat := 1844674407370954906

/-- All places are taken: what comes next can only round. -/
def Progress.isFull (p : Progress) : Bool := p.seenPoint && maxScale ≤ p.scale

/-- The progress after one more digit that fits. -/
def Progress.push (p : Progress) (digit : Nat) : Progress :=
  let coefficient := p.coefficient * 10 + digit
  let scale := if p.seenPoint then p.scale + 1 else p.scale
  { coefficient, scale, seenPoint := p.seenPoint, seenDigit := true
    wide := p.wide || (wideFrom ≤ coefficient && !(p.seenPoint && maxScale ≤ scale)) }

/-- The fault of a character that cannot stand where it stands. -/
def misplaced (c : Char) : Fault :=
  if c = '.' then .secondPoint else if c = '_' then .separatorTooEarly else .unknownCharacter

/-- Rounds by the first dropped digit; a coefficient that overflows gives up its last place. -/
def roundBy (coefficient scale digit : Nat) : Except Fault (Nat × Nat) :=
  if digit < 5 then .ok (coefficient, scale)
  else if coefficient < maxCoefficient then .ok (coefficient + 1, scale)
  else if scale = 0 then .error .roundedPastLimit
  else .ok ((coefficient + 1 + 4) / 10, scale - 1)

/-- Dropped places hold digits and separators only. -/
def checkDropped : List Char → Except Fault Unit
  | [] => .ok ()
  | c :: cs => if c.isDigit || c = '_' then checkDropped cs else .error (misplaced c)

/-- Rounds by the first dropped digit and checks the rest of the text. -/
def finishBy (p : Progress) (digit : Nat) (rest : List Char) : Except Fault (Nat × Nat) := do
  let parts ← roundBy p.coefficient p.scale digit
  checkDropped rest
  return parts

/-- Reads an unsigned plain number from where `p` has got to. -/
def readPlaces (p : Progress) : List Char → Except Fault (Nat × Nat)
  | [] => if p.seenDigit then .ok (p.coefficient, p.scale) else .error .noDigits
  | c :: cs =>
    match Whole.digit? c with
    | some d =>
      if p.isFull then finishBy p d cs
      else if p.coefficient * 10 + d ≤ maxCoefficient then readPlaces (p.push d) cs
      else if p.seenPoint then finishBy p d cs
      else .error .tooManyDigits
    | none =>
      if c = '_' && p.seenDigit then
        if p.isFull && !p.wide then finishBy p 0 cs else readPlaces p cs
      else if c = '.' && !p.seenPoint then readPlaces { p with seenPoint := true } cs
      else .error (misplaced c)

/-- The number of given sign and parts, which the readers keep within bounds; a zero is given no
sign. -/
def assemble (negative : Bool) (parts : Nat × Nat) : Except Fault Decimal :=
  match ofParts? (negative && parts.1 != 0) parts.1 parts.2 with
  | some d => .ok d
  | none => .error .tooLarge

/-- Plain notation: an optional sign, digits with at most one point, and separators `_` anywhere
after the first digit. -/
def readPlain : List Char → Except Fault Decimal
  | [] => .error .empty
  | '-' :: cs => readPlaces {} cs >>= assemble true
  | '+' :: cs => readPlaces {} cs >>= assemble false
  | cs => readPlaces {} cs >>= assemble false

/-- The letter that opens an exponent. -/
def isExponentMark (c : Char) : Bool := c = 'e' || c = 'E'

/-- What to do where an exponent asks for more than 28 places. -/
inductive Excess where
  /-- It is a fault. -/
  | refuse
  /-- The base is rounded first, a half going away from zero. -/
  | round
  deriving DecidableEq, Repr

/-- Divides by a power of ten. What is rounded to zero keeps its sign. -/
def lower (excess : Excess) (base : Decimal) (exponent : Nat) : Except Fault Decimal :=
  let scale := base.scale + exponent
  if maxScale < exponent then .error (.scaleTooLarge exponent)
  else if scale ≤ maxScale then
    (ofParts? base.negative base.coefficient scale).elim (.error (.scaleTooLarge scale)) .ok
  else match excess with
    | .refuse => .error (.scaleTooLarge scale)
    | .round =>
      (ofParts? base.negative (shorten base.coefficient (scale - maxScale)) maxScale).elim
        (.error .tooLarge) .ok

/-- Multiplies by a power of ten: places are used up first, then zeros are appended. -/
def raise (base : Decimal) (exponent : Nat) : Except Fault Decimal :=
  if exponent ≤ base.scale then
    (ofParts? base.negative base.coefficient (base.scale - exponent)).elim (.error .tooLarge) .ok
  else if maxScale < exponent then .error (.scaleTooLarge exponent)
  else
    (ofParts? base.negative (base.coefficient * Whole.tenTo (exponent - base.scale)) 0).elim
      (.error .tooLarge) .ok

/-- The number that an exponent is, of at most 32 bits. -/
def readExponent (cs : List Char) : Except Fault Nat :=
  match Whole.readUnsigned 4294967295 cs with
  | .ok n => .ok n
  | .error _ => .error .notScientific

/-- Scientific notation: a plain number, a mark, and a whole exponent. -/
def readScientific (excess : Excess) (cs : List Char) : Except Fault Decimal :=
  match cs.dropWhile (!isExponentMark ·) with
  | [] => .error .notScientific
  | _ :: exponent => do
    let base ← readPlain (cs.takeWhile (!isExponentMark ·))
    match exponent with
    | '-' :: ds => lower excess base (← readExponent ds)
    | ds => raise base (← readExponent ds)

/-- Plain notation, or else scientific notation that rounds what does not fit. -/
def read (cs : List Char) : Except Fault Decimal :=
  match readPlain cs with
  | .ok d => .ok d
  | .error e => if cs.any isExponentMark then readScientific .round cs else .error e

/-- As `read`, with strict scientific notation as the last resort, whose fault is reported. -/
def readAny (cs : List Char) : Except Fault Decimal :=
  match read cs with
  | .ok d => .ok d
  | .error _ => readScientific .refuse cs

end SamplingFrame.Decimal
