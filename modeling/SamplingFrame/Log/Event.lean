import SamplingFrame.Json.Basic

/-!
# Log events

What is logged, how important it is, and the work during which it happens.
-/

namespace SamplingFrame

/-- How important an event is; the first is the most important. -/
inductive LogLevel where
  | error
  | warn
  | info
  | debug
  | trace
  deriving DecidableEq, Repr

namespace LogLevel

/-- The rank of a level; greater ranks are less important. -/
def rank : LogLevel → Nat
  | .error => 1
  | .warn => 2
  | .info => 3
  | .debug => 4
  | .trace => 5

/-- The word that marks an event. -/
def label : LogLevel → String
  | .error => "ERROR"
  | .warn => "WARN"
  | .info => "INFO"
  | .debug => "DEBUG"
  | .trace => "TRACE"

end LogLevel

/-- A piece of work during which events happen, with named values. -/
structure LogSpan where
  /-- How important it is. -/
  level : LogLevel
  /-- The name of the work. -/
  name : String
  /-- The part of the program that does it. -/
  target : String
  /-- The values that belong to it. -/
  values : List (String × Json)
  deriving Repr

/-- An event with its message and named values. -/
structure LogEvent where
  /-- How important it is. -/
  level : LogLevel
  /-- The part of the program in which it happens. -/
  target : String
  /-- What has happened. -/
  message : String
  /-- The values that belong to it. -/
  values : List (String × Json)
  /-- The names of values that are measured when it happens. -/
  measured : List String := []
  deriving Repr

/-- The names of all values of an event; its message is one of them. -/
def LogEvent.names (e : LogEvent) : List String :=
  "message" :: e.values.map (·.1) ++ e.measured

/-- A line of the log. -/
inductive LogEntry where
  /-- An event, and the work during which it happens. -/
  | event (e : LogEvent) (during : Option LogSpan)
  /-- The end of a piece of work. -/
  | closing (work : LogSpan)
  deriving Repr

namespace LogEntry

/-- How important a line is. -/
def level : LogEntry → LogLevel
  | .event e _ => e.level
  | .closing work => work.level

/-- The message of a line. -/
def message : LogEntry → String
  | .event e _ => e.message
  | .closing _ => "close"

/-- The message and the values of a line as a document. -/
def fields : LogEntry → Json
  | .event e _ => Json.ofMembers (("message", .string e.message) :: e.values)
  | .closing _ => Json.ofMembers [("message", .string "close")]

end LogEntry

end SamplingFrame
