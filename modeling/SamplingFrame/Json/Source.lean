import SamplingFrame.Json.Basic

/-!
# Documents as they are met

A source is a document in the order in which it is written, with repeated keys, and with the places
at which it turns out to be faulty. Whoever loads it meets its parts one by one, so a fault counts
only if nothing before it stopped the loading. A value that is already in memory is a source, too:
one without faults.
-/

namespace SamplingFrame

/-- A document, or a part of one. -/
inductive Source where
  | null
  | boolean (b : Bool)
  | number (n : Json.Number)
  | string (s : String)
  | array (items : List Source)
  /-- Members with keys; a key may be unusable. `streamed` says that a member is met before it is
  known whether others follow. -/
  | object (streamed : Bool) (members : List (Option String × Source))
  /-- A part that can be skipped but not used: a number too large, a lone surrogate, an array or
  object nested too deep. -/
  | unusable
  /-- The document breaks off here. -/
  | cut
  deriving Repr

namespace Source

mutual

/-- A value in memory, as a source. -/
def ofJson : Json → Source
  | .null => .null
  | .boolean b => .boolean b
  | .number n => .number n
  | .string s => .string s
  | .array items => .array (ofItems items)
  | .object members => .object false (ofMembers members)

/-- The items of an array in memory. -/
def ofItems : List Json → List Source
  | [] => []
  | v :: vs => ofJson v :: ofItems vs

/-- The members of an object in memory. -/
def ofMembers : List (String × Json) → List (Option String × Source)
  | [] => []
  | (k, v) :: ms => (some k, ofJson v) :: ofMembers ms

end

mutual

/-- The value that a source without faults stands for. Of the members of one key, the last
counts. -/
def toJson? : Source → Option Json
  | .null => some .null
  | .boolean b => some (.boolean b)
  | .number n => some (.number n)
  | .string s => some (.string s)
  | .array items => (toItems? items).map .array
  | .object _ members => (toMembers? [] members).map .object
  | .unusable | .cut => none

/-- The values of the items of an array. -/
def toItems? : List Source → Option (List Json)
  | [] => some []
  | v :: vs => do
    let v ← toJson? v
    let vs ← toItems? vs
    return v :: vs

/-- The members of an object, added to those already met. -/
def toMembers? (met : List (String × Json)) :
    List (Option String × Source) → Option (List (String × Json))
  | [] => some met
  | (k, v) :: ms => do
    let k ← k
    let v ← toJson? v
    toMembers? (Json.insertMember k v met) ms

end

mutual

/-- Whether a source can be skipped: it does not break off. -/
def isWhole : Source → Bool
  | .array items => itemsWhole items
  | .object _ members => membersWhole members
  | .cut => false
  | _ => true

/-- Whether no item breaks off. -/
def itemsWhole : List Source → Bool
  | [] => true
  | v :: vs => isWhole v && itemsWhole vs

/-- Whether no member breaks off. -/
def membersWhole : List (Option String × Source) → Bool
  | [] => true
  | (_, v) :: ms => isWhole v && membersWhole ms

end

mutual

/-- How many arrays and objects stand within each other. -/
def depth : Source → Nat
  | .array items => itemsDepth items + 1
  | .object _ members => membersDepth members + 1
  | _ => 0

/-- The greatest depth of an item. -/
def itemsDepth : List Source → Nat
  | [] => 0
  | v :: vs => max (depth v) (itemsDepth vs)

/-- The greatest depth of a member. -/
def membersDepth : List (Option String × Source) → Nat
  | [] => 0
  | (_, v) :: ms => max (depth v) (membersDepth ms)

end

end Source

end SamplingFrame
