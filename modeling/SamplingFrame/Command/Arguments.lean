import SamplingFrame.Number.Whole

/-!
# Arguments of the command line

Options with values, given in the next argument or after an equals sign, each at most once. The
first fault counts, and asking for the version or for help ends the reading.
-/

namespace SamplingFrame.Command

/-- What the command is asked to preview. -/
structure Arguments where
  /-- The path of the frame. -/
  frame : String
  /-- The path of the records. -/
  records : String
  /-- How many rows are wanted, if that is given. -/
  limit : Option Nat
  deriving DecidableEq, Repr

/-- What a command line asks for. -/
inductive Request where
  | preview (arguments : Arguments)
  | version
  | help
  /-- The command line is not well formed. -/
  | misuse
  deriving DecidableEq, Repr

/-- The options that have been given so far. -/
structure Given where
  frame : Option String := none
  records : Option String := none
  limit : Option Nat := none

/-- The request of a command line that has been read to its end. -/
def Given.finish (g : Given) : Request :=
  match g.frame, g.records with
  | some frame, some records => .preview ⟨frame, records, g.limit⟩
  | _, _ => .misuse

/-- An option with its value; none if it is unknown, given already, or has a value of the wrong
form. -/
def Given.set (g : Given) (option value : String) : Option Given :=
  match option with
  | "frame" =>
    if g.frame.isSome || value.isEmpty then none else some { g with frame := some value }
  | "records" =>
    if g.records.isSome || value.isEmpty then none else some { g with records := some value }
  | "limit" =>
    match Whole.readUnsigned Whole.maxUnsigned value.toList with
    | .ok n => if g.limit.isSome then none else some { g with limit := some n }
    | .error _ => none
  | _ => none

/-- Whether an argument cannot be the value of the option before it. -/
def isOption (argument : List Char) : Bool :=
  match argument with
  | ['-'] => false
  | '-' :: _ => true
  | _ => false

/-- Splits an option at its first equals sign. -/
def splitOption (cs : List Char) : String × Option String :=
  let name := cs.takeWhile (· ≠ '=')
  match cs.drop name.length with
  | _ :: value => (String.ofList name, some (String.ofList value))
  | [] => (String.ofList name, none)

/-- Reads the rest of a command line. -/
def readFrom (g : Given) : List String → Request
  | [] => g.finish
  | argument :: rest =>
    match argument.toList with
    | ['-', '-'] => if rest.isEmpty then g.finish else .misuse
    | '-' :: '-' :: cs =>
      match splitOption cs with
      | ("version", none) => .version
      | ("help", none) => .help
      | (option, some value) =>
        match g.set option value with
        | some g => readFrom g rest
        | none => .misuse
      | (option, none) =>
        match rest with
        | [] => .misuse
        | value :: rest =>
          if isOption value.toList then .misuse
          else match g.set option value with
            | some g => readFrom g rest
            | none => .misuse
    | '-' :: 'V' :: _ => .version
    | '-' :: 'h' :: _ => .help
    | _ => .misuse

/-- What a command line asks for. -/
def Request.ofArguments (arguments : List String) : Request := readFrom {} arguments

end SamplingFrame.Command
