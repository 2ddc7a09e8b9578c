import Mathlib.Data.List.Nodup
import SamplingFrame.Command.Run
import SamplingFrame.Proofs.Group.Predicate
import SamplingFrame.Proofs.Json.Text
import SamplingFrame.Proofs.Scan

/-!
# What the command prints

The command prints the rows of a preview, each as one line, if it can read its documents and compile
its frame. The preview itself does not fail then, because units hold values of the right kinds. How
much it shows and how far it goes is limited by the arguments and by the configuration. In every
other case nothing is printed, and the exit status tells that the command has failed.
-/

namespace SamplingFrame

/-! ### Lines -/

/-- A line prints a row of given columns: there is no control character in the line, and it is the
text of an object, whose keys are the names of the columns and whose values are the texts of the
row. -/
structure Row.PrintedAs (columns : List Field) (row : Row) (line : String) : Prop where
  unbroken : Json.Unbroken line.toList
  object : ∃ members, Source.parse? line.toList = some (.object members) ∧
    members.Perm (row.map fun (f, text) ↦ (f.label, .string text)) ∧
    (members.map (·.1)).Nodup ∧ ∀ k, k ∈ members.map (·.1) ↔ ∃ f ∈ columns, f.label = k

theorem Field.label_injective : Function.Injective Field.label := by
  intro f g h
  have hf := ofLabel?_label f
  rw [h, ofLabel?_label, Option.some.injEq] at hf
  exact hf.symm

/-- The line of a row prints it. -/
theorem Record.printedAs_rowLine (r : Record) (columns : List Field) :
    Row.PrintedAs columns (r.row columns) (Command.rowLine (r.row columns)) := by
  have hshows := r.row_shows columns
  let printed : List (String × Json) :=
    (r.row columns).map fun (f, text) ↦ (f.label, .string text)
  have hplain : ∀ m ∈ printed, m.2.IsPlain := by
    intro m hm
    obtain ⟨_, -, rfl⟩ := List.mem_map.mp hm
    trivial
  have hkeys : printed.map (·.1) = ((r.row columns).map (·.1)).map Field.label := by
    rw [List.map_map, List.map_map]
    rfl
  have hnodup : (printed.map (·.1)).Nodup := by
    rw [hkeys]
    exact List.Nodup.map Field.label_injective hshows.nodup
  obtain ⟨members, hparse, hperm⟩ := Source.exists_parse?_render hplain hnodup
  have hmembers : (members.map (·.1)).Perm (printed.map (·.1)) := hperm.map _
  rw [Command.rowLine]
  refine ⟨?_, members, ?_, hperm, hmembers.nodup_iff.mpr hnodup, fun k ↦ ?_⟩
  · rw [String.toList_ofList]
    exact Json.unbroken_render hplain
  · rw [String.toList_ofList]
    exact hparse
  · rw [hmembers.mem_iff, hkeys, List.mem_map]
    simp only [hshows.mem_iff]

namespace CompiledFrame

theorem of_compile {compiler : Compiler} {frame : Frame} {compiled : CompiledFrame}
    (h : (compiler.compile frame).1 = .ok compiled) :
    compiled.frame = frame ∧ frame.selection.predicate = .ok compiled.predicate := by
  rw [Compiler.compile] at h
  cases hcompile : frame.compile (compiler.version + 1) with
  | error fault =>
    rw [hcompile] at h
    cases h
  | ok c =>
    rw [hcompile] at h
    cases h
    rw [Frame.compile] at hcompile
    split at hcompile
    · cases hcompile
    · obtain ⟨p, hp, hc⟩ := bind_eq_ok.mp hcompile
      cases hc
      exact ⟨rfl, hp⟩

/-- A frame that was compiled for units is previewed without a violation, and its rows are those of
some of the units. -/
theorem exists_preview_of_units {compiler : Compiler} {frame : Frame} {compiled : CompiledFrame}
    (h : (compiler.compile frame).1 = .ok compiled) (units : List StatisticalUnit)
    (wanted limit : Nat) :
    ∃ p, compiled.preview (units.map (·.record)) wanted limit = .ok p ∧
      ∀ row ∈ p.rows, ∃ r : Record, row = r.row frame.columns := by
  obtain ⟨hframe, hpredicate⟩ := of_compile h
  have hvalues : ∀ r ∈ units.map (·.record),
      compiled.predicate.matches? r = .ok (compiled.predicate.selects r) := by
    intro r hr
    obtain ⟨u, -, rfl⟩ := List.mem_map.mp hr
    exact Predicate.matches?_eq_selects ⟨_, Group.matches?_of_fits hpredicate (u.fitsOn _)⟩
  obtain ⟨scan, hscan, -⟩ := Scan.exists_finds hvalues wanted (Scan.boundOf limit)
  refine ⟨compiled.previewOf scan, preview_eq_ok hscan, fun row hrow ↦ ?_⟩
  · obtain ⟨r, -, rfl⟩ := List.mem_map.mp hrow
    exact ⟨r, by rw [hframe]⟩

end CompiledFrame

namespace Command

/-- Whether the command has what it needs: both documents can be read, and the frame compiles. -/
structure Prepares (surroundings : Surroundings) (arguments : Arguments) (frame : Frame)
    (units : List StatisticalUnit) (compiled : CompiledFrame) : Prop where
  loadsFrame : loadFile surroundings .frame arguments.frame Frame.load = .ok frame
  loadsRecords : loadFile surroundings .records arguments.records
    (Load.list StatisticalUnit.load) = .ok units
  compiles : (Compiler.new.compile frame).1 = .ok compiled

variable {surroundings : Surroundings} {s : Settings} {arguments : Arguments}

/-- A run has lines to print just if it was prepared and the preview has not failed. -/
theorem course_eq_ok_iff {lines : List String} :
    (course surroundings s arguments).2 = .ok lines ↔
      ∃ frame units compiled p, Prepares surroundings arguments frame units compiled ∧
        compiled.preview (units.map (·.record)) (arguments.limit.getD s.previewLimit)
          s.scanLimit = .ok p ∧ lines = p.rows.map rowLine := by
  constructor
  · intro h
    simp only [course] at h
    split at h
    · cases h
    · next frame units hinputs =>
      obtain ⟨frame', hframe, hrest⟩ := bind_eq_ok.mp hinputs
      obtain ⟨units', hunits, hpair⟩ := bind_eq_ok.mp hrest
      cases hpair
      simp only [coursePreview] at h
      split at h
      · cases h
      · next compiled hcompiled =>
        split at h
        · cases h
        · next p hp =>
          cases h
          exact ⟨frame, units, compiled, p, ⟨hframe, hunits, hcompiled⟩, hp, rfl⟩
  · rintro ⟨frame, units, compiled, p, hprepares, hp, rfl⟩
    rw [course, hprepares.loadsFrame, hprepares.loadsRecords]
    simp only [bind, Except.bind, pure, Except.pure, coursePreview, hprepares.compiles, hp]

/-- A run that was prepared has a line for each row of the preview. -/
theorem course_of_prepares {frame : Frame} {units : List StatisticalUnit}
    {compiled : CompiledFrame} (h : Prepares surroundings arguments frame units compiled)
    (s : Settings) :
    ∃ p lines, compiled.preview (units.map (·.record)) (arguments.limit.getD s.previewLimit)
        s.scanLimit = .ok p ∧
      (course surroundings s arguments).2 = .ok lines ∧
      List.Forall₂ (Row.PrintedAs frame.columns) p.rows lines := by
  obtain ⟨p, hp, hrows⟩ := CompiledFrame.exists_preview_of_units h.compiles units
    (arguments.limit.getD s.previewLimit) s.scanLimit
  refine ⟨p, p.rows.map rowLine, hp,
    course_eq_ok_iff.mpr ⟨frame, units, compiled, p, h, hp, rfl⟩, ?_⟩
  rw [List.forall₂_map_right_iff, List.forall₂_same]
  intro row hrow
  obtain ⟨r, rfl⟩ := hrows row hrow
  exact r.printedAs_rowLine frame.columns

theorem exists_failure_of_course
    (h : ∀ frame units compiled, ¬ Prepares surroundings arguments frame units compiled)
    (s : Settings) : ∃ failure, (course surroundings s arguments).2 = .error failure := by
  cases hcourse : (course surroundings s arguments).2 with
  | error failure => exact ⟨failure, rfl⟩
  | ok lines =>
    obtain ⟨frame, units, compiled, -, hprepares, -⟩ := course_eq_ok_iff.mp hcourse
    exact absurd hprepares (h frame units compiled)

/-! ### Settings -/

/-- The configuration of the service, if it can be used. The variables may name an environment and a
directory, in which the files are unless their names are absolute. -/
def configuration? (surroundings : Surroundings) : Option Settings :=
  let environment := (surroundings.vars.lookup "STATREG_ENV").getD "development"
  let directory := (surroundings.vars.lookup "CONFIG_DIR").getD "config"
  let path (name : String) :=
    if directory.isEmpty ∨ name.startsWith "/" then name else directory ++ "/" ++ name
  Settings.load "sample-frame" environment (fun name ↦ (surroundings.file (path name)).toOption)
    surroundings.vars

/-- The settings of a run: those of the configuration, or the built-in ones if it cannot be
used. -/
inductive Configured (surroundings : Surroundings) : Settings → Prop where
  | loaded {s : Settings} (h : configuration? surroundings = some s) : Configured surroundings s
  | builtin (h : configuration? surroundings = none) :
      Configured surroundings ⟨"sample-frame", "development", "info", "pretty", 100, 1000000⟩

theorem valueOf?_eq_lookup (name : String) (vars : List (String × String)) :
    Settings.valueOf? name vars = vars.lookup name := by
  rw [Settings.valueOf?, List.lookup_eq_findSome?, ← List.findSome?_guard, List.map_findSome?]
  refine congrArg (vars.findSome? ·) (funext fun v ↦ ?_)
  by_cases h : name = v.1 <;> simp [Option.guard, h, Ne.symm]

theorem settings?_eq (surroundings : Surroundings) :
    settings? surroundings = configuration? surroundings := by
  simp only [settings?, configuration?, Settings.environmentOf, Settings.directoryOf,
    valueOf?_eq_lookup, serviceName, joinPath, Bool.or_eq_true]

theorem configured (surroundings : Surroundings) :
    Configured surroundings ((settings? surroundings).getD .builtin) := by
  rw [settings?_eq]
  cases h : configuration? surroundings with
  | some s => exact .loaded h
  | none => exact .builtin h

/-! ### Runs -/

/-- What a course leaves to print, and the exit status. -/
theorem run_of_course (surroundings : Surroundings) (arguments : Arguments) :
    let report := run surroundings arguments
    match (course surroundings ((settings? surroundings).getD .builtin) arguments).2 with
    | .ok lines => report.lines = lines ∧ report.exitStatus = 0
    | .error _ => report.lines = [] ∧ report.exitStatus ≠ 0 := by
  simp only [run]
  cases (course surroundings ((settings? surroundings).getD .builtin) arguments).2 with
  | ok lines => exact ⟨rfl, rfl⟩
  | error failure =>
    refine ⟨rfl, ?_⟩
    cases failure <;> simp [Report.exitStatus]

/-- The command prints a line for each row, in order, and succeeds, if its documents load and its
frame compiles. It shows as many rows as its arguments say, or else its settings, and its settings
limit the scan. In every other case it prints nothing and fails. -/
theorem run_prints_all_or_nothing (surroundings : Surroundings) (arguments : Arguments) :
    let report := run surroundings arguments
    ∃ settings, Configured surroundings settings ∧
      (∀ frame units compiled, Prepares surroundings arguments frame units compiled →
        report.exitStatus = 0 ∧
        ∃ p, compiled.preview (units.map (·.record)) (arguments.limit.getD settings.previewLimit)
            settings.scanLimit = .ok p ∧
          List.Forall₂ (Row.PrintedAs frame.columns) p.rows report.lines) ∧
      ((∀ frame units compiled, ¬ Prepares surroundings arguments frame units compiled) →
        report.exitStatus ≠ 0 ∧ report.lines = []) := by
  intro report
  have hrun := run_of_course surroundings arguments
  refine ⟨_, configured surroundings, ?_⟩
  generalize (settings? surroundings).getD .builtin = settings at hrun
  refine ⟨fun frame units compiled hprepares ↦ ?_, fun hnone ↦ ?_⟩
  · obtain ⟨p, lines, hp, hcourse, hprinted⟩ := course_of_prepares hprepares settings
    rw [hcourse] at hrun
    obtain ⟨rfl, hstatus⟩ := hrun
    exact ⟨hstatus, p, hp, hprinted⟩
  · obtain ⟨failure, hcourse⟩ := exists_failure_of_course hnone settings
    rw [hcourse] at hrun
    exact ⟨hrun.2, hrun.1⟩

/-- A frame that selects all units, and three units, one with a quote and an end of line in its
name. A file of the configuration limits the rows, and a variable limits the scan. -/
def limitedNames : Surroundings where
  file path :=
    if path = "frame.json" then
      .ok "\x7b\"id\":\"1\",\"name\":\"all\",\"predicate\":\x7b\x7d,\"fields\":[\"Name\"]\x7d"
    else if path = "units.json" then
      .ok "[\x7b\"name\":\"a\\\"b\\nč\"\x7d,\x7b\"name\":\"c\"\x7d,\x7b\"name\":\"d\"\x7d]"
    else if path = "config/sample-frame.toml" then .ok "[sample_frame]\npreview_limit = 1"
    else .error "missing"
  vars := [("STATREG_SAMPLE_FRAME__SCAN_LIMIT", "2")]

/-- The settings of these files and variables. -/
def limitedSettings : Settings where
  serviceName := "sample-frame"
  environment := "development"
  logLevel := "info"
  logFormat := "pretty"
  previewLimit := 1
  scanLimit := 2

/-- One unit is printed where the arguments leave the limit to the settings, and two of the three
where they ask for five, because of the limit of the scan. Nothing is printed without the file of
the units. -/
theorem run_prints_all_or_nothing_limited :
    (∃ frame units compiled,
      Prepares limitedNames ⟨"frame.json", "units.json", none⟩ frame units compiled ∧
      (run limitedNames ⟨"frame.json", "units.json", none⟩).exitStatus = 0 ∧
      ∃ p, compiled.preview (units.map (·.record)) 1 2 = .ok p ∧
        List.Forall₂ (Row.PrintedAs frame.columns) p.rows
          (run limitedNames ⟨"frame.json", "units.json", none⟩).lines) ∧
    (run limitedNames ⟨"frame.json", "units.json", none⟩).lines =
      ["\x7b\"Name\":\"a\\\"b\\nč\"\x7d"] ∧
    (run limitedNames ⟨"frame.json", "units.json", some 5⟩).lines =
      ["\x7b\"Name\":\"a\\\"b\\nč\"\x7d", "\x7b\"Name\":\"c\"\x7d"] ∧
    (∀ frame units compiled,
      ¬ Prepares limitedNames ⟨"frame.json", "missing.json", none⟩ frame units compiled) ∧
    (run limitedNames ⟨"frame.json", "missing.json", none⟩).exitStatus ≠ 0 ∧
    (run limitedNames ⟨"frame.json", "missing.json", none⟩).lines = [] := by
  have hsettings : ∀ s, Configured limitedNames s → s = limitedSettings := by
    have hloaded : configuration? limitedNames = some limitedSettings := by decide +kernel
    rintro s (h | h)
    · rw [hloaded] at h
      exact (Option.some.inj h).symm
    · rw [hloaded] at h
      cases h
  have hcourse : (course limitedNames limitedSettings ⟨"frame.json", "units.json", none⟩).2 =
      .ok ["\x7b\"Name\":\"a\\\"b\\nč\"\x7d"] := by
    decide +kernel
  obtain ⟨frame, units, compiled, -, hprepares, -⟩ := course_eq_ok_iff.mp hcourse
  have hnone : ∀ frame units compiled,
      ¬ Prepares limitedNames ⟨"frame.json", "missing.json", none⟩ frame units compiled :=
    fun _ _ _ h ↦ nomatch h.loadsRecords
  obtain ⟨s, hs, hprinted, -⟩ :=
    run_prints_all_or_nothing limitedNames ⟨"frame.json", "units.json", none⟩
  obtain ⟨-, -, -, hfailed⟩ :=
    run_prints_all_or_nothing limitedNames ⟨"frame.json", "missing.json", none⟩
  obtain rfl := hsettings s hs
  exact ⟨⟨frame, units, compiled, hprepares, hprinted frame units compiled hprepares⟩,
    by decide +kernel, by decide +kernel, hnone, hfailed hnone⟩

end Command

end SamplingFrame
