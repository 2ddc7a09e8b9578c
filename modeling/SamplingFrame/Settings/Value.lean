import SamplingFrame.Number.Floating

/-!
# Configuration values

The values of which a configuration is made, how a later value is laid over an earlier one, and how
values are converted to what a setting asks for.
-/

namespace SamplingFrame

/-- A value in a configuration. -/
inductive Setting where
  /-- Nothing: what stands in a place that nobody has filled. -/
  | nil
  | text (s : String)
  | integer (n : Int)
  | real (x : Floating)
  | boolean (b : Bool)
  | list (items : List Setting)
  | table (entries : List (String × Setting))
  deriving Repr

namespace Setting

/-- The value of a key among entries. -/
def find? (key : String) (entries : List (String × Setting)) : Option Setting :=
  (entries.find? (·.1 == key)).map (·.2)

/-- Sets the value of a key among entries. -/
def put (key : String) (value : Setting) : List (String × Setting) → List (String × Setting)
  | [] => [(key, value)]
  | (k, v) :: es => if k = key then (k, value) :: es else (k, v) :: put key value es

/-- The entries of a table; nothing else has any. -/
def entries : Setting → List (String × Setting)
  | .table es => es
  | _ => []

/-- The items of a list; nothing else has any. -/
def items : Setting → List Setting
  | .list vs => vs
  | _ => []

mutual

/-- What is left of an earlier value under a later one. The entries of a table are laid over those
of the earlier value one by one, and anything else takes its place. -/
def override (earlier : Setting) : Setting → Setting
  | .table es => .table (overrideAll earlier.entries es)
  | later => later

/-- Lays entries over earlier ones. -/
def overrideAll (earlier : List (String × Setting)) :
    List (String × Setting) → List (String × Setting)
  | [] => earlier
  | (k, v) :: es => overrideAll (put k (override ((find? k earlier).getD .nil) v) earlier) es

end

/-- The text that a value is converted to. -/
def toText? : Setting → Option String
  | .text s => some s
  | .integer n => some (String.ofList (Whole.render n))
  | .real x => some x.render
  | .boolean b => some (if b then "true" else "false")
  | .nil | .list _ | .table _ => none

/-- The words that stand for one and zero. -/
def countWord? (s : String) : Option Nat :=
  match String.ofList (s.toList.map Char.toLower) with
  | "true" | "on" | "yes" => some 1
  | "false" | "off" | "no" => some 0
  | _ => none

/-- The count that a value is converted to. -/
def toCount? : Setting → Option Nat
  | .text s =>
    match countWord? s with
    | some n => some n
    | none =>
      match Whole.readUnsigned Whole.maxUnsigned s.toList with
      | .ok n => some n
      | .error _ => none
  | .integer n => if 0 ≤ n then some n.toNat else none
  | .real x => some x.toCount
  | .boolean b => some (if b then 1 else 0)
  | .nil | .list _ | .table _ => none

end Setting

end SamplingFrame
