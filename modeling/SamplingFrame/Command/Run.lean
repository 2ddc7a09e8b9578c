import SamplingFrame.Command.Arguments
import SamplingFrame.Frame.Json
import SamplingFrame.Json.Reader
import SamplingFrame.Log.Filter
import SamplingFrame.Record.Json
import SamplingFrame.Scan
import SamplingFrame.Settings.Basic

/-!
# The command

Previews a frame over records, both read from files. Rows are printed only after everything has
succeeded; otherwise the command fails and says why.
-/

namespace SamplingFrame.Command

/-- What a command sees of the system that it runs in. -/
structure Surroundings where
  /-- The text of a file, or why it cannot be read. -/
  file : String → Except String String
  /-- The environment variables. -/
  vars : List (String × String)

/-- One of the two documents that the command reads. -/
inductive Input where
  | frame
  | records
  deriving DecidableEq, Repr

/-- What is said if an input cannot be had. -/
def Input.complaint : Input → String
  | .frame => "无法解析抽样框定义"
  | .records => "无法解析统计单位记录"

/-- Why the command fails. -/
inductive Failure where
  | unreadable (input : Input) (path reason : String)
  | notLoaded (input : Input) (failure : LoadFailure)
  | notCompiled (id : String) (fault : Fault)
  | violated (violation : Violation)
  deriving DecidableEq, Repr

/-- What is said about a failure, from the outermost circumstance to the innermost cause. Documents
of the wrong form are not described any further. -/
def Failure.chain : Failure → List String
  | .unreadable input path reason => [input.complaint, "无法读取文件 " ++ path, reason]
  | .notLoaded input failure => [input.complaint, failure.message?.getD "json"]
  | .notCompiled id fault => ["抽样框 " ++ id ++ " 编译失败", fault.message, fault.detail]
  | .violated violation => [violation.message]

/-- What a run of the command leaves behind. -/
structure Report where
  /-- The lines of the standard output. -/
  lines : List String
  /-- Why the command failed, if it did. -/
  failure : Option Failure
  /-- The lines that were logged. -/
  log : List LogEntry
  /-- The settings that were used. -/
  settings : Settings
  /-- Whether the configuration could not be used. -/
  configFailed : Bool

/-- Loads a document from its whole text. -/
def loadText {α : Type} (load : Load α) (text : String) : Except LoadFailure α := do
  let (source, complete) := Source.ofText text.toList
  let value ← load source
  if complete then return value else throw .malformed

/-- Reads and loads a document. -/
def loadFile {α : Type} (surroundings : Surroundings) (input : Input) (path : String)
    (load : Load α) : Except Failure α :=
  match surroundings.file path with
  | .error reason => .error (.unreadable input path reason)
  | .ok text =>
    match loadText load text with
    | .ok a => .ok a
    | .error failure => .error (.notLoaded input failure)

/-- A row as one line. -/
def rowLine (row : Row) : String :=
  String.ofList (Json.render (.object (row.map fun (f, text) => (f.label, .string text))))

/-- The name of the service. -/
def serviceName : String := "sample-frame"

/-- The path of a file in a directory; an absolute path stays as it is. -/
def joinPath (directory name : String) : String :=
  if directory.isEmpty || name.startsWith "/" then name else directory ++ "/" ++ name

/-- The settings of the command, unless its configuration cannot be used. -/
def settings? (surroundings : Surroundings) : Option Settings :=
  let directory := Settings.directoryOf surroundings.vars
  Settings.load serviceName (Settings.environmentOf surroundings.vars)
    (fun name => (surroundings.file (joinPath directory name)).toOption) surroundings.vars

/-- A count as a document. -/
def count (n : Nat) : Json := .number (.integer n)

/-- The parts of the program, as the log knows them. -/
inductive Part where
  | observability
  | command
  | compiler
  | executor
  deriving DecidableEq, Repr

/-- The name of a part of the program in the log. -/
def Part.target : Part → String
  | .observability => "registry_shared::observability"
  | .command => "sample_frame"
  | .compiler => "sample_frame::compiler"
  | .executor => "sample_frame::executor"

/-- The event at the start. -/
def startEvent (s : Settings) : LogEvent where
  level := .info
  target := Part.observability.target
  message := "Observability initialized"
  values := [("service", .string s.serviceName), ("log_level", .string s.logLevel),
    ("log_format", .string s.logFormat)]

/-- The event after loading. -/
def loadedEvent (frame : Frame) (units : List StatisticalUnit) : LogEvent where
  level := .info
  target := Part.command.target
  message := "已加载抽样框与记录"
  values := [("frame", .string frame.name), ("records", count units.length)]

/-- The event after compiling. -/
def compiledEvent (compiled : CompiledFrame) : LogEvent where
  level := .debug
  target := Part.compiler.target
  message := "抽样框编译完成"
  values := [("frame_id", .string compiled.frame.id),
    ("rules", count compiled.frame.selection.ruleCount),
    ("required_fields", count compiled.required.length), ("version", count compiled.version)]

/-- The event of a row. -/
def rowEvent (row : Row) : LogEvent where
  level := .debug
  target := Part.executor.target
  message := "记录已投影"
  values := [("columns", count row.length)]

/-- The warning that records were left unread. -/
def limitEvent (limit matched : Nat) : LogEvent where
  level := .warn
  target := Part.executor.target
  message := "扫描达到上限 " ++ String.ofList (Whole.digits limit) ++ "，仅返回 " ++
    String.ofList (Whole.digits matched) ++ " 条匹配记录"
  values := []

/-- The event after a scan. -/
def scannedEvent (p : Preview) : LogEvent where
  level := .info
  target := Part.executor.target
  message := "抽样框预览完成: " ++ p.frameId
  values := [("scanned", count p.scanned), ("matched", count p.matched)]
  measured := ["elapsed_ms"]

/-- The event at the end. -/
def doneEvent (p : Preview) : LogEvent where
  level := .info
  target := Part.command.target
  message := "预览完成"
  values := [("scanned", count p.scanned), ("matched", count p.matched),
    ("scan_limit_reached", .boolean p.limitReached)]

/-- The work of previewing a frame. -/
def previewWork (wanted : Nat) (frame : Frame) : LogSpan where
  level := .info
  name := "preview"
  target := Part.executor.target
  values := [("limit", count wanted), ("frame_id", .string frame.id),
    ("frame_name", .string frame.name)]

/-- The events of a scan: one for each row, a warning if records were left unread, and a summary. -/
def scanEvents (limit : Nat) (p : Preview) : List LogEvent :=
  p.rows.map rowEvent ++ (if p.limitReached then [limitEvent limit p.matched] else []) ++
    [scannedEvent p]

/-- How far a run has got: the lines of its log, and what it ends with. -/
abbrev Course := List LogEntry × Except Failure (List String)

/-- The lines of a piece of work: its events, and its end, which only documents tell. -/
def workLines (s : Settings) (work : LogSpan) (events : List LogEvent) : List LogEntry :=
  events.map (.event · (some work)) ++ (if s.jsonLogs then [.closing work] else [])

/-- The course of previewing a frame over units. -/
def coursePreview (s : Settings) (wanted : Nat) (frame : Frame) (units : List StatisticalUnit) :
    Course :=
  let work := previewWork wanted frame
  match (Compiler.new.compile frame).1 with
  | .error fault => (workLines s work [], .error (.notCompiled frame.id fault))
  | .ok compiled =>
    match compiled.preview (units.map (·.record)) wanted s.scanLimit with
    | .error violation =>
      (workLines s work [compiledEvent compiled], .error (.violated violation))
    | .ok p =>
      (workLines s work (compiledEvent compiled :: scanEvents s.scanLimit p) ++
        [.event (doneEvent p) none], .ok (p.rows.map rowLine))

/-- The course of a run with given settings. -/
def course (surroundings : Surroundings) (s : Settings) (arguments : Arguments) : Course :=
  let inputs := do
    let frame ← loadFile surroundings .frame arguments.frame Frame.load
    let units ← loadFile surroundings .records arguments.records (Load.list StatisticalUnit.load)
    return (frame, units)
  match inputs with
  | .error failure => ([.event (startEvent s) none], .error failure)
  | .ok (frame, units) =>
    let wanted := arguments.limit.getD s.previewLimit
    let (lines, result) := coursePreview s wanted frame units
    (.event (startEvent s) none :: .event (loadedEvent frame units) none :: lines, result)

/-- Runs the command. -/
def run (surroundings : Surroundings) (arguments : Arguments) : Report :=
  let found := settings? surroundings
  let settings := found.getD Settings.builtin
  let filter := LogFilter.choose settings.logLevel (Settings.valueOf? "RUST_LOG" surroundings.vars)
  let (log, result) := course surroundings settings arguments
  let log := log.filter filter.admits
  match result with
  | .ok lines => ⟨lines, none, log, settings, found.isNone⟩
  | .error failure => ⟨[], some failure, log, settings, found.isNone⟩

/-- The exit status of a run. -/
def Report.exitStatus (r : Report) : Nat :=
  match r.failure with
  | none => 0
  | some (.violated _) => 101
  | some _ => 1

/-- The line that tells the version. -/
def versionLine : String := "sample-frame 0.1.0"

/-- The lines that explain the command. -/
def helpLines : List String :=
  ["Preview the units selected by a sample frame", "",
    "Usage: sample-frame [OPTIONS] --frame <FRAME> --records <RECORDS>", "",
    "Options:",
    "      --frame <FRAME>      the frame (JSON)",
    "      --records <RECORDS>  the units (JSON array)",
    "      --limit <LIMIT>      the most rows to print",
    "  -h, --help               Print help",
    "  -V, --version            Print version"]

end SamplingFrame.Command
