import SamplingFrame.Frame
import SamplingFrame.Group.Json

/-!
# Frames as documents

How frames are written down and loaded. The time at which a frame was made is loaded in any relaxed
notation and written in universal time.
-/

namespace SamplingFrame.Frame

/-- The keys of a frame. -/
inductive Key where
  | id
  | name
  | selection
  | columns
  | createdAt
  deriving DecidableEq, Repr

/-- The spellings of the keys of a frame. -/
def form : Form Key where
  keys := [.id, .name, .selection, .columns, .createdAt]
  name
    | .id => "id"
    | .name => "name"
    | .selection => "predicate"
    | .columns => "fields"
    | .createdAt => "created_at"
  aliases _ := []

/-- What the parts of a frame are. -/
def Key.Part : Key → Type
  | .id | .name => String
  | .selection => Group
  | .columns => List Field
  | .createdAt => Timestamp

/-- A moment, in any relaxed notation. -/
def loadMoment : Load Timestamp
  | .string s =>
    match (Timestamp.readRelaxed? s.toList).bind (·.toUniversal?) with
    | some t => .ok t
    | none => .error .malformed
  | _ => .error .malformed

/-- How the parts of a frame are loaded. -/
def Key.load : (k : Key) → Load k.Part
  | .id => Load.text
  | .name => Load.text
  | .selection => Group.load
  | .columns => Load.list Field.load
  | .createdAt => loadMoment

/-- A frame as a document. -/
def toJson (frame : Frame) : Json :=
  let moment := frame.createdAt.toList.map fun t =>
    ("created_at", Json.string (String.ofList t.render))
  .object (moment ++ [
    ("fields", .array (frame.columns.map Field.toJson)),
    ("id", .string frame.id),
    ("name", .string frame.name),
    ("predicate", frame.selection.toJson)])

/-- The frame that a document is. -/
def load : Load Frame := fun v => do
  let parts ← form.read Key.load v
  return {
    id := ← parts.require .id
    name := ← parts.require .name
    selection := ← parts.require .selection
    columns := ← parts.require .columns
    createdAt := parts.slots .createdAt }

end SamplingFrame.Frame
