import SamplingFrame.Log.Directive

/-!
# Log filters

A filter is made of directives, and of those that apply to an event or a piece of work the most
specific one decides. Directives about work or values can also let events pass that happen during
that work.
-/

namespace SamplingFrame

open Log (Directive Demand)

/-- Directives, the most specific one first. -/
structure LogFilter.Rules where
  directives : List Directive := []
  /-- The greatest limit that any directive has asked for, even one that has been replaced. -/
  limit : LogLimit := .off
  deriving DecidableEq, Repr

namespace LogFilter.Rules

/-- Puts a directive among those that are less specific; one that differs in its limit alone is
replaced. -/
def insert (d : Directive) : List Directive → List Directive
  | [] => [d]
  | e :: es =>
    match d.compare e with
    | .gt => d :: e :: es
    | .eq => d :: es
    | .lt => e :: insert d es

/-- Adds a directive. -/
def add (r : Rules) (d : Directive) : Rules where
  directives := insert d r.directives
  limit := if r.limit.rank < d.limit.rank then d.limit else r.limit

/-- The rules that directives make, the later ones over the earlier ones. -/
def ofDirectives (ds : List Directive) : Rules := ds.foldl add {}

end LogFilter.Rules

namespace Log.Directive

/-- Whether a directive is about work or values. -/
def isDynamic (d : Directive) : Bool := d.work.isSome || d.demand.isSome

/-- Whether a directive applies to a part of the program. -/
def coversTarget (d : Directive) (target : String) : Bool :=
  d.target.all fun start => start.toList.isPrefixOf target.toList

/-- What a directive says about events wherever they happen: nothing if it is about work or asks
for a certain value. -/
def plain? (d : Directive) : Option Directive :=
  if d.work.isSome || d.demand.any (·.pattern.isSome) then none else some d

/-- Whether a directive about work applies to it. -/
def coversWork (d : Directive) (work : LogSpan) : Bool :=
  d.coversTarget work.target && d.work.all (· == work.name) &&
    d.demand.all fun demand => work.values.any (·.1 == demand.name)

/-- Whether a piece of work has the value that a directive asks for. -/
def isMet (d : Directive) (work : LogSpan) : Bool :=
  d.demand.all fun demand => demand.pattern.all fun pattern =>
    work.values.any fun (name, value) => name == demand.name && pattern.fits value

end Log.Directive

/-- What is logged. -/
structure LogFilter where
  /-- The directives about parts of the program. -/
  plain : LogFilter.Rules
  /-- The directives about work and values. -/
  dynamic : LogFilter.Rules
  deriving DecidableEq, Repr

namespace LogFilter

/-- The filter that directives make. A directive that asks for a value of some name, whichever that
is, is both about work that has one and about events that have one. -/
def ofDirectives (ds : List Directive) : LogFilter where
  plain := .ofDirectives <|
    ds.filter (!·.isDynamic) ++ (ds.filter (·.isDynamic)).filterMap (·.plain?)
  dynamic := .ofDirectives <| ds.filter (·.isDynamic)

/-- The filter of a text: directives with commas between them. A text without directives lets
nothing pass. -/
def ofText? (s : String) : Option LogFilter := do
  let parts := (s.toList.splitOn ',').filter (!·.isEmpty)
  return ofDirectives (← parts.mapM Directive.ofText?)

/-- The filter of a program: what its environment asks for, or else what is configured, or else
informative events. Texts that are no filter do not count. -/
def choose (configured : String) (asked : Option String) : LogFilter :=
  ((asked.bind ofText?).or (ofText? configured)).getD (ofDirectives [{ limit := .upTo .info }])

/-- The text that shows a filter. -/
def render (f : LogFilter) : String :=
  ",".intercalate ((f.plain.directives ++ f.dynamic.directives).map (·.render))

/-- Whether anything as important as a level can pass at all. Directives that ask for certain values
keep every level possible. -/
def mayAdmit (f : LogFilter) (level : LogLevel) : Bool :=
  f.dynamic.directives.any (fun d => d.demand.any (·.pattern.isSome)) ||
    f.plain.limit.admits level || f.dynamic.limit.admits level

/-- Whether the most specific of the plain directives that apply lets a level pass. -/
def plainAdmits (f : LogFilter) (target : String) (covers : Directive → Bool) (level : LogLevel) :
    Bool :=
  (f.plain.directives.find? fun d => d.coversTarget target && covers d).any (·.limit.admits level)

/-- Whether a piece of work is logged. -/
def admitsWork (f : LogFilter) (work : LogSpan) : Bool :=
  f.mayAdmit work.level &&
    (f.dynamic.directives.any (·.coversWork work) ||
      f.plainAdmits work.target (fun _ => true) work.level)

/-- Whether a directive about a piece of work lets the events of a level pass that happen during
it. -/
def admitsDuring (f : LogFilter) (work : LogSpan) (level : LogLevel) : Bool :=
  f.mayAdmit work.level &&
    f.dynamic.directives.any fun d =>
      d.coversWork work && d.isMet work && d.limit.admits level

/-- Whether a line of the log is written. -/
def admits (f : LogFilter) : LogEntry → Bool
  | .event e during =>
    let covers (d : Directive) : Bool := d.demand.all fun demand => e.names.contains demand.name
    f.mayAdmit e.level &&
      (f.plainAdmits e.target covers e.level || during.any (f.admitsDuring · e.level))
  | .closing work => f.admitsWork work

end LogFilter

end SamplingFrame
