import SamplingFrame.Number.Binary64

/-!
# JSON values and their compact text

A JSON value keeps the distinction between whole numbers and floating point numbers. The members of
an object that was loaded stand in ascending order of their keys, each key once.
-/

namespace SamplingFrame

/-- A JSON number: a whole number, or a floating point number for everything else. -/
inductive Json.Number where
  | integer (n : Int)
  | double (x : Binary64)
  deriving DecidableEq, Repr

/-- A JSON value. -/
inductive Json where
  | null
  | boolean (b : Bool)
  | number (n : Json.Number)
  | string (s : String)
  | array (items : List Json)
  | object (members : List (String × Json))
  deriving Repr

namespace Json

/-- The whole number that a number is, if it has at most 64 bits with sign. -/
def Number.signed? : Number → Option Int64
  | .integer n =>
    if -9223372036854775808 ≤ n ∧ n ≤ 9223372036854775807 then some (Int64.ofInt n) else none
  | .double _ => none

/-- The text of a number. -/
def Number.render : Number → List Char
  | .integer n => Whole.render n
  | .double x => x.render

/-- Two hexadecimal digits in lower case. -/
def hexPair (n : Nat) : List Char := (Nat.toDigits 16 n).leftpad 2 '0'

/-- A character inside a string: quotes, backslashes and control characters are escaped. -/
def escape (c : Char) : List Char :=
  if c = '"' then ['\\', '"']
  else if c = '\\' then ['\\', '\\']
  else if c = '\n' then ['\\', 'n']
  else if c = '\r' then ['\\', 'r']
  else if c = '\t' then ['\\', 't']
  else if c = '\x08' then ['\\', 'b']
  else if c = '\x0c' then ['\\', 'f']
  else if c.toNat < 32 then '\\' :: 'u' :: '0' :: '0' :: hexPair c.toNat
  else [c]

/-- A string in quotes. -/
def quote (s : String) : List Char := '"' :: s.toList.flatMap escape ++ ['"']

mutual

/-- The text of a value, without blanks. -/
def render : Json → List Char
  | .null => "null".toList
  | .boolean true => "true".toList
  | .boolean false => "false".toList
  | .number n => n.render
  | .string s => quote s
  | .array items => '[' :: renderItems items ++ [']']
  | .object members => '\x7b' :: renderMembers members ++ ['\x7d']

/-- The items of an array, with commas between them. -/
def renderItems : List Json → List Char
  | [] => []
  | [v] => render v
  | v :: vs => render v ++ ',' :: renderItems vs

/-- The members of an object, with commas between them. -/
def renderMembers : List (String × Json) → List Char
  | [] => []
  | [(k, v)] => quote k ++ ':' :: render v
  | (k, v) :: ms => quote k ++ ':' :: render v ++ ',' :: renderMembers ms

end

/-- Puts a member into an ordered object; a member of the same key gives way. -/
def insertMember (key : String) (value : Json) : List (String × Json) → List (String × Json)
  | [] => [(key, value)]
  | (k, v) :: ms =>
    if key < k then (key, value) :: (k, v) :: ms
    else if key = k then (key, value) :: ms
    else (k, v) :: insertMember key value ms

/-- The object of given members, in the order of their keys. -/
def ofMembers (members : List (String × Json)) : Json :=
  .object (members.foldl (fun ms m => insertMember m.1 m.2 ms) [])

/-- The value of a key in an object. -/
def member? (key : String) : Json → Option Json
  | .object members => (members.find? (·.1 == key)).map (·.2)
  | _ => none

end Json

end SamplingFrame
