import SamplingFrame.Settings.File
import SamplingFrame.Settings.Variable

/-!
# Settings

The six settings and where they come from. Sources are laid over each other key by key: built-in
values, three files, and environment variables. Only what is left at the end is converted.
-/

namespace SamplingFrame

/-- The settings of a service. -/
structure Settings where
  /-- The name of the service. -/
  serviceName : String
  /-- The environment that it runs in. -/
  environment : String
  /-- How much is logged. -/
  logLevel : String
  /-- How log lines are written. -/
  logFormat : String
  /-- How many rows a preview shows. -/
  previewLimit : Nat
  /-- How many records a preview may read; zero for any number. -/
  scanLimit : Nat
  deriving DecidableEq, Repr

namespace Settings

/-- The built-in settings. -/
def builtin : Settings where
  serviceName := "sample-frame"
  environment := "development"
  logLevel := "info"
  logFormat := "pretty"
  previewLimit := 100
  scanLimit := 1000000

/-- Whether log lines are written as documents. -/
def jsonLogs (s : Settings) : Bool := s.logFormat.toList.map Char.toLower == "json".toList

/-- Whether the environment is the one of production. -/
def isProduction (s : Settings) : Bool := s.environment == "production"

/-- Entries of a configuration. -/
abbrev Tree := List (String × Setting)

/-- A setting as text; what is built in stands where none is given. -/
def textAt (key builtin : String) (tree : Tree) : Option String :=
  match Setting.find? key tree with
  | none => some builtin
  | some v => v.toText?

/-- A setting as a count; what is built in stands where none is given. -/
def countAt (key : String) (builtin : Nat) (tree : Tree) : Option Nat :=
  match Setting.find? key tree with
  | none => some builtin
  | some v => v.toCount?

/-- The entries of a section, which may be written as a list, too: then its items belong to the
keys in order. A section that is not given has no entries. -/
def sectionAt (key : String) (keys : List String) (tree : Tree) : Option Tree :=
  match Setting.find? key tree with
  | none => some []
  | some (.table es) => some es
  | some (.list items) => some (keys.zip items)
  | some _ => none

/-- The settings that a configuration gives, if all can be converted. -/
def ofTree? (tree : Tree) : Option Settings := do
  let observability ← sectionAt "observability" ["log_level", "log_format"] tree
  let sampleFrame ← sectionAt "sample_frame" ["preview_limit", "scan_limit"] tree
  return {
    serviceName := ← textAt "service_name" builtin.serviceName tree
    environment := ← textAt "environment" builtin.environment tree
    logLevel := ← textAt "log_level" builtin.logLevel observability
    logFormat := ← textAt "log_format" builtin.logFormat observability
    previewLimit := ← countAt "preview_limit" builtin.previewLimit sampleFrame
    scanLimit := ← countAt "scan_limit" builtin.scanLimit sampleFrame }

/-- The files of a configuration, the later ones over the earlier ones. -/
def fileNames (service environment : String) : List String :=
  ["default.toml", environment ++ ".toml", service ++ ".toml"]

/-- The configuration of files and variables, the later ones over the earlier ones. -/
def treeOf (tree : Setting) (files : List (List (String × Setting)))
    (vars : List (String × String)) : Setting :=
  vars.foldl (fun tree (name, text) => layVariable tree name text) (files.foldl layFile tree)

/-- The settings of a service in an environment. -/
def load (service environment : String) (file : String → Option String)
    (vars : List (String × String)) : Option Settings := do
  let base := .table [("service_name", .text service), ("environment", .text environment)]
  let files ← (fileNames service environment).mapM (readFile? file)
  ofTree? (treeOf base files vars).entries

/-- The value of a variable. -/
def valueOf? (name : String) (vars : List (String × String)) : Option String :=
  (vars.find? (·.1 == name)).map (·.2)

/-- The environment that the variables name. -/
def environmentOf (vars : List (String × String)) : String :=
  (valueOf? "STATREG_ENV" vars).getD "development"

/-- The directory of the configuration that the variables name. -/
def directoryOf (vars : List (String × String)) : String :=
  (valueOf? "CONFIG_DIR" vars).getD "config"

end Settings

end SamplingFrame
