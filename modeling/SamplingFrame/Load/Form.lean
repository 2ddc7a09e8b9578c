import SamplingFrame.Json.Source
import SamplingFrame.Load.Failure

/-!
# Loading structures

A structure is written as an object with its keys, or as an array of its parts in the order of the
keys. The parts of an object are loaded in the order in which they are met, so the first fault is
the one that counts; missing keys are noticed only at the end.
-/

namespace SamplingFrame

/-- A loader of values of type `α`. -/
abbrev Load (α : Type) := Source → Except LoadFailure α

namespace Load

/-- A string. -/
def text : Load String
  | .string s => .ok s
  | _ => .error .malformed

/-- An array of items. -/
def list {α : Type} (item : Load α) : Load (List α)
  | .array vs => vs.mapM item
  | _ => .error .malformed

/-- A value, or null for none. -/
def optional {α : Type} (load : Load α) : Load (Option α)
  | .null => .ok none
  | v => (load v).map some

/-- Any value without faults. -/
def anything : Load Json := fun v =>
  match v.toJson? with
  | some j => .ok j
  | none => .error .malformed

/-- One of a list of variants by its name, or as an object whose only key is that name and whose
value is null. -/
def variant {α : Type} (all : List α) (name : α → String) : Load α := fun v =>
  let pick (s : String) : Except LoadFailure α :=
    match all.find? (name · == s) with
    | some x => .ok x
    | none => .error (.unknownVariant s (all.map name))
  match v with
  | .string s => pick s
  | .object _ [(some s, .null)] => pick s
  | .object streamed ((some s, _) :: rest) =>
    if streamed || rest.isEmpty then pick s >>= fun _ => .error .malformed
    else .error .malformed
  | _ => .error .malformed

end Load

/-- The keys of a structure, in their order, and the spellings of each. -/
structure Form (κ : Type) where
  /-- The keys, in order. -/
  keys : List κ
  /-- The spelling under which a key is written, and that faults name. -/
  name : κ → String
  /-- The other spellings that are read. -/
  aliases : κ → List String

/-- The parts of a structure that have been loaded so far. -/
abbrev Slots (κ : Type) (V : κ → Type) := (k : κ) → Option (V k)

/-- Puts a part into its place. -/
def Slots.set {κ : Type} {V : κ → Type} [DecidableEq κ] (slots : Slots κ V) (k : κ) (v : V k) :
    Slots κ V :=
  fun l => if h : k = l then some (h ▸ v) else slots l

/-- The parts of a structure, and the failure that a missing one is. -/
structure Parts (κ : Type) (V : κ → Type) where
  /-- The parts that were given. -/
  slots : Slots κ V
  /-- What it means that a part was not given. -/
  absent : κ → LoadFailure

/-- A part that has to be given. -/
def Parts.require {κ : Type} {V : κ → Type} (parts : Parts κ V) (k : κ) :
    Except LoadFailure (V k) :=
  match parts.slots k with
  | some v => .ok v
  | none => .error (parts.absent k)

namespace Form

variable {κ : Type} {V : κ → Type} [DecidableEq κ]

/-- The key of a spelling. -/
def find? (form : Form κ) (s : String) : Option κ :=
  form.keys.find? fun k => form.name k == s || (form.aliases k).contains s

/-- Loads the parts of an object. Unknown keys are skipped, and no key may be given twice. -/
def readMembers (form : Form κ) (load : (k : κ) → Load (V k)) (slots : Slots κ V) :
    List (Option String × Source) → Except LoadFailure (Slots κ V)
  | [] => .ok slots
  | (none, _) :: _ => .error .malformed
  | (some s, v) :: ms =>
    match form.find? s with
    | none => if v.isWhole then readMembers form load slots ms else .error .malformed
    | some k =>
      match slots k with
      | some _ => .error (.repeatedKey (form.name k))
      | none => do
        let x ← load k v
        readMembers form load (slots.set k x) ms

/-- Loads the parts of an array, of the given keys in turn. -/
def readItems (load : (k : κ) → Load (V k)) (slots : Slots κ V) :
    List κ → List Source → Except LoadFailure (Slots κ V)
  | _, [] => .ok slots
  | [], _ :: _ => .error .malformed
  | k :: ks, v :: vs => do
    let x ← load k v
    readItems load (slots.set k x) ks vs

/-- Loads the parts of a structure that is written as an object. -/
def readObject (form : Form κ) (load : (k : κ) → Load (V k)) : Load (Parts κ V)
  | .object _ ms => do
    return ⟨← form.readMembers load (fun _ => none) ms, fun k => .missingKey (form.name k)⟩
  | _ => .error .malformed

/-- Loads the parts of a structure that is written as an object or as an array. -/
def read (form : Form κ) (load : (k : κ) → Load (V k)) : Load (Parts κ V)
  | .array vs => do
    return ⟨← readItems load (fun _ => none) form.keys vs, fun _ => .malformed⟩
  | v => form.readObject load v

end Form

end SamplingFrame
