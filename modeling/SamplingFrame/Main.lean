import SamplingFrame.Command.Run

/-!
# The program

Reads files and variables for the command, and prints what it reports.
-/

namespace SamplingFrame.Command

/-- The words of the system for why a file has no text. -/
def refusalOf : IO.Error → String
  | .noFileOrDirectory .. => "No such file or directory (os error 2)"
  | .permissionDenied _ 13 _ => "Permission denied (os error 13)"
  | .inappropriateType _ 20 _ => "Not a directory (os error 20)"
  | .inappropriateType _ 21 _ => "Is a directory (os error 21)"
  | e => toString e

/-- The text of a file, or the words of the system for why there is none. -/
def readTextFile (path : String) : IO (Except String String) := do
  try
    let bytes ← IO.FS.readBinFile path
    return match String.fromUTF8? bytes with
      | some text => .ok text
      | none => .error "stream did not contain valid UTF-8"
  catch e => return .error (refusalOf e)

/-- The environment variables of this process. -/
def readVariables : IO (List (String × String)) := do
  match ← readTextFile "/proc/self/environ" with
  | .error _ => return []
  | .ok text =>
    return (text.toList.splitOn '\x00').filterMap fun entry =>
      let name := entry.takeWhile (· ≠ '=')
      if name.length < entry.length then
        some (String.ofList name, String.ofList (entry.drop (name.length + 1)))
      else none

/-- What the command sees: its variables, and those files that it may ask for. -/
def readSurroundings (arguments : Arguments) : IO Surroundings := do
  let vars ← readVariables
  let directory := Settings.directoryOf vars
  let names := Settings.fileNames serviceName (Settings.environmentOf vars)
  let longNames := names.flatMap fun name => Settings.endings.map fun e => name ++ "." ++ e.1
  let paths := (names ++ longNames).map (joinPath directory) ++
    [arguments.frame, arguments.records]
  let files ← paths.mapM fun path => return (path, ← readTextFile path)
  return {
    file := fun path => ((files.find? (·.1 == path)).map (·.2)).getD (.error "unknown file")
    vars }

/-- Prints a report, and gives its exit status. -/
def printReport (r : Report) : IO UInt32 := do
  let out ← IO.getStdout
  let err ← IO.getStderr
  if r.configFailed then
    err.putStrLn "Failed to load config, using defaults"
  for e in r.log do
    let line := Json.object [("level", .string e.level.label), ("fields", e.fields)]
    if r.settings.jsonLogs then err.putStrLn (String.ofList line.render)
    else err.putStrLn (e.level.label ++ " " ++ e.message)
  for line in r.lines do
    out.putStrLn line
  for (cause, depth) in (r.failure.map Failure.chain).getD [] |>.zipIdx do
    err.putStrLn ((if depth = 0 then "Error: " else "  caused by: ") ++ cause)
  return r.exitStatus.toUInt32

/-- Does what a command line asks for, and gives the exit status. -/
def perform (args : List String) : IO UInt32 := do
  match Request.ofArguments args with
  | .misuse =>
    (← IO.getStderr).putStrLn "error: the arguments are not well formed; try --help"
    return 2
  | .version =>
    (← IO.getStdout).putStrLn versionLine
    return 0
  | .help =>
    for line in helpLines do (← IO.getStdout).putStrLn line
    return 0
  | .preview arguments => printReport (run (← readSurroundings arguments) arguments)

end SamplingFrame.Command

/-- The program. -/
def main (args : List String) : IO UInt32 := SamplingFrame.Command.perform args
