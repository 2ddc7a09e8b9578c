import SamplingFrame.Settings.Path

/-!
# Settings in environment variables

Which setting a variable names, and what its text stands for.
-/

namespace SamplingFrame.Settings

/-- What the names of variables that belong to a configuration start with, in lower case. -/
def variablePrefix : List Char := "statreg_".toList

/-- Lower case. The Kelvin sign is the only letter beyond ASCII whose lower case is a letter that
the name of a step may hold. -/
def lower (c : Char) : Char := if c = '\u212a' then 'k' else c.toLower

/-- A text with `.` in place of every pair of underscores, taken from the left. -/
def dotted : List Char → List Char
  | '_' :: '_' :: cs => '.' :: dotted cs
  | c :: cs => c :: dotted cs
  | [] => []

/-- The path of a setting that a variable names. -/
def variablePath? (name : String) : Option (List Step) :=
  let name := name.toList.map lower
  if variablePrefix.isPrefixOf name then
    some (pathOf (dotted (name.drop variablePrefix.length)))
  else none

/-- What the text of a variable stands for: a truth value in any case, a number, or itself. -/
def variableValue (text : String) : Setting :=
  match String.ofList (text.toList.map Char.toLower) with
  | "true" => .boolean true
  | "false" => .boolean false
  | _ =>
    match Whole.readSigned text.toList with
    | .ok n => .integer n.toInt
    | .error _ =>
      match Floating.ofText? text.toList with
      | some x => .real x
      | none => .text text

/-- Lays a variable over a configuration, if it belongs to one. -/
def layVariable (tree : Setting) (name text : String) : Setting :=
  match variablePath? name with
  | some path => setAt (variableValue text) path tree
  | none => tree

end SamplingFrame.Settings
