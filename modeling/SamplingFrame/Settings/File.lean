import SamplingFrame.Ini.Reader
import SamplingFrame.Json.Reader
import SamplingFrame.Json5.Reader
import SamplingFrame.Ron.Reader
import SamplingFrame.Settings.Path
import SamplingFrame.Toml.Reader
import SamplingFrame.Yaml.Reader

/-!
# Settings in files

How the file of a configuration is found by its name, and what it gives. A file that is missing may
be there under a longer name, whose ending tells the format of its text.
-/

namespace SamplingFrame

mutual

/-- The configuration value that a JSON value stands for. -/
def Setting.ofJson : Json → Setting
  | .null => .nil
  | .boolean b => .boolean b
  | .number (.integer n) =>
    if n ≤ Whole.maxSigned then .integer n
    else (Binary64.ofNat? n.natAbs).elim .nil fun x => .real (.finite x)
  | .number (.double x) => .real (.finite x)
  | .string s => .text s
  | .array items => .list (ofItems items)
  | .object members => .table (ofMembers members)

/-- The items of a list. -/
def Setting.ofItems : List Json → List Setting
  | [] => []
  | v :: vs => ofJson v :: ofItems vs

/-- The entries of a table. -/
def Setting.ofMembers : List (String × Json) → List (String × Setting)
  | [] => []
  | (k, v) :: ms => (k, ofJson v) :: ofMembers ms

end

namespace Settings

/-- The formats in which a configuration may be written. -/
inductive Format where
  | toml
  | json
  | yaml
  | ini
  | ron
  | json5
  deriving DecidableEq, Repr

/-- The endings of file names that tell a format, in the order in which they are tried. -/
def endings : List (String × Format) :=
  [("toml", .toml), ("json", .json), ("yaml", .yaml), ("yml", .yaml), ("ini", .ini), ("ron", .ron),
    ("json5", .json5)]

/-- The entries that a text of a format gives, if it is well formed. A mark of byte order at its
start is skipped. -/
def Format.read? (format : Format) (text : String) : Option (List (String × Setting)) :=
  let cs := match text.toList with
    | '\ufeff' :: rest => rest
    | cs => cs
  match format with
  | .toml => Toml.read? cs
  | .json =>
    match Source.ofText cs with
    | (source, true) =>
      match source.toJson? with
      | some (.object members) => some (Setting.ofMembers members)
      | _ => none
    | (_, false) => none
  | .yaml => Yaml.read? cs
  | .ini => Ini.read? cs
  | .ron => Ron.read? cs
  | .json5 => Json5.read? cs

/-- Whether a name is nothing but an ending. -/
def isBareEnding (name : String) : Bool :=
  (name.toList.reverse.takeWhile (· ≠ '/')).reverse == ".toml".toList

/-- The entries that the file of a name gives: its own, or if there is no such file, those of the
first one with an ending added. Files that are missing or have no name give none, and a file that
is not well formed is a fault. -/
def readFile? (file : String → Option String) (name : String) : Option (List (String × Setting)) :=
  match file name with
  | some text => if isBareEnding name then some [] else Format.toml.read? text
  | none =>
    match endings.findSome? fun (ending, format) => (file (name ++ "." ++ ending)).map (format, ·)
    with
    | some (format, text) => format.read? text
    | none => some []

/-- Lays the entries of a file over a configuration; their keys are paths. -/
def layFile (tree : Setting) (entries : List (String × Setting)) : Setting :=
  entries.foldl (fun tree (key, v) => setAt v (pathOf key.toList) tree) tree

end Settings

end SamplingFrame
