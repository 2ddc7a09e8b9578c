import Mathlib.Data.List.TakeWhile
import Mathlib.Tactic.Choose
import SamplingFrame.Proofs.Settings.Write
import SamplingFrame.Settings.Basic

/-!
# Sources of settings

There are six settings, each at its own place of a configuration. A file has a value for a setting
at this place, and a variable has one under the name of the setting; whatever else they write is
nothing for this setting.
-/

namespace SamplingFrame.Settings

open Setting

/-! ### The settings one by one -/

/-- The settings of a service. -/
inductive Item where
  | serviceName
  | environment
  | logLevel
  | logFormat
  | previewLimit
  | scanLimit
  deriving DecidableEq, Repr

namespace Item

/-- Where a configuration has a setting. -/
def place : Item → List String
  | serviceName => ["service_name"]
  | environment => ["environment"]
  | logLevel => ["observability", "log_level"]
  | logFormat => ["observability", "log_format"]
  | previewLimit => ["sample_frame", "preview_limit"]
  | scanLimit => ["sample_frame", "scan_limit"]

/-- The name of the variable that holds a setting. -/
def variableName : Item → String
  | serviceName => "STATREG_SERVICE_NAME"
  | environment => "STATREG_ENVIRONMENT"
  | logLevel => "STATREG_OBSERVABILITY__LOG_LEVEL"
  | logFormat => "STATREG_OBSERVABILITY__LOG_FORMAT"
  | previewLimit => "STATREG_SAMPLE_FRAME__PREVIEW_LIMIT"
  | scanLimit => "STATREG_SAMPLE_FRAME__SCAN_LIMIT"

/-- The type of a setting. -/
abbrev Value : Item → Type
  | previewLimit | scanLimit => Nat
  | serviceName | environment | logLevel | logFormat => String

/-- A setting among those of a service. -/
def get : (item : Item) → Settings → item.Value
  | serviceName, s => s.serviceName
  | environment, s => s.environment
  | logLevel, s => s.logLevel
  | logFormat, s => s.logFormat
  | previewLimit, s => s.previewLimit
  | scanLimit, s => s.scanLimit

/-- Converts a value to the type of a setting. -/
def convert? : (item : Item) → Setting → Option item.Value
  | serviceName | environment | logLevel | logFormat => Setting.toText?
  | previewLimit | scanLimit => Setting.toCount?

/-- What a setting is without any configuration. -/
def builtin (service environment : String) : Item → Setting
  | .serviceName => .text service
  | .environment => .text environment
  | .logLevel => .text "info"
  | .logFormat => .text "pretty"
  | .previewLimit => .integer 100
  | .scanLimit => .integer 1000000

end Item

/-- The settings of six values, if all can be converted. -/
def ofValues? (value : Item → Setting) : Option Settings := do
  return {
    serviceName := ← (value .serviceName).toText?
    environment := ← (value .environment).toText?
    logLevel := ← (value .logLevel).toText?
    logFormat := ← (value .logFormat).toText?
    previewLimit := ← (value .previewLimit).toCount?
    scanLimit := ← (value .scanLimit).toCount? }

theorem ofValues?_eq_some {value : Item → Setting} {s : Settings} :
    ofValues? value = some s ↔ ∀ item : Item, item.convert? (value item) = some (item.get s) := by
  constructor
  · intro h
    simp only [ofValues?, Option.bind_eq_bind, Option.bind_eq_some_iff, Option.pure_def,
      Option.some.injEq] at h
    obtain ⟨_, h₁, _, h₂, _, h₃, _, h₄, _, h₅, _, h₆, rfl⟩ := h
    intro item
    cases item
    exacts [h₁, h₂, h₃, h₄, h₅, h₆]
  · intro h
    have h₁ : (value .serviceName).toText? = some s.serviceName := h .serviceName
    have h₂ : (value .environment).toText? = some s.environment := h .environment
    have h₃ : (value .logLevel).toText? = some s.logLevel := h .logLevel
    have h₄ : (value .logFormat).toText? = some s.logFormat := h .logFormat
    have h₅ : (value .previewLimit).toCount? = some s.previewLimit := h .previewLimit
    have h₆ : (value .scanLimit).toCount? = some s.scanLimit := h .scanLimit
    rw [ofValues?, h₁, h₂, h₃, h₄, h₅, h₆]
    rfl

theorem ofValues?_eq_none {value : Item → Setting} :
    ofValues? value = none ↔ ∃ item : Item, item.convert? (value item) = none := by
  constructor
  · intro h
    by_contra hall
    have hsome (item : Item) : ∃ x, item.convert? (value item) = some x :=
      Option.ne_none_iff_exists'.mp fun hnone ↦ hall ⟨item, hnone⟩
    choose x hx using hsome
    let s : Settings :=
      ⟨x .serviceName, x .environment, x .logLevel, x .logFormat, x .previewLimit, x .scanLimit⟩
    have hs : ofValues? value = some s := ofValues?_eq_some.mpr fun item ↦ by
      cases item <;> exact hx _
    rw [h] at hs
    cases hs
  · rintro ⟨item, h⟩
    refine Option.eq_none_iff_forall_ne_some.mpr fun s hs ↦ ?_
    have hitem := ofValues?_eq_some.mp hs item
    rw [h] at hitem
    cases hitem

/-! ### What sources write -/

/-- The names of the sections. -/
def sections : List String := ["observability", "sample_frame"]

/-- Whether a write leaves a section a table: it gives the section as a table, goes on to one of the
section's keys, or is elsewhere. A key may be a path, and one that goes on to an item would give the
section as a list. -/
def leavesTable (name : String) : List Step → Setting → Bool
  | [.key k], v => k != name || v.isTable
  | .key k :: .index _ :: _, _ => k != name
  | _, _ => true

/-- What a source writes, one after the other. -/
abbrev Layer := List (List Step × Setting)

/-- What a file writes. -/
def fileLayer (entries : List (String × Setting)) : Layer :=
  entries.map fun (key, v) ↦ (pathOf key.toList, v)

/-- What a variable writes, if it belongs to the configuration. -/
def variableWrite? (v : String × String) : Option (List Step × Setting) :=
  (variablePath? v.1).map (·, variableValue v.2)

/-- What the variables write. -/
def variableLayer (vars : List (String × String)) : Layer := vars.filterMap variableWrite?

/-- What a layer has for a setting. -/
def Item.valueIn? (item : Item) (layer : Layer) : Option Setting :=
  layer.reverse.findSome? fun write ↦ given? item.place write.1 write.2

/-- A write at the place of a setting is for this setting only. -/
theorem given?_place (item other : Item) (v : Setting) :
    given? item.place (other.place.map .key) v = if other = item then some v.plain else none := by
  cases item <;> cases other <;> rfl

/-- A section gives nothing to a key that it lacks. -/
theorem given?_section {key : String} {es : List (String × Setting)} (h : key ∉ es.map (·.1))
    (name : String) : given? [name, key] [.key name] (.table es) = none := by
  rw [given?, if_pos rfl, given?, Settings.valueIn?, List.findSome?_eq_none_iff]
  intro e he
  have hne : e.1 ≠ key := fun hkey ↦ h (hkey ▸ List.mem_map_of_mem (List.mem_reverse.mp he))
  rw [if_neg hne]

/-- What is written at the place of a setting leaves the sections tables. -/
theorem leavesTable_place (item : Item) (v : Setting) {name : String} (h : name ∈ sections) :
    leavesTable name (item.place.map .key) v = true := by
  obtain rfl | rfl : name = "observability" ∨ name = "sample_frame" := by
    simpa [sections] using h
  all_goals cases item <;> rfl

/-- Whether a layer leaves the sections tables. -/
def LeavesTables (layer : Layer) : Prop :=
  ∀ w ∈ layer, ∀ name ∈ sections, leavesTable name w.1 w.2 = true

instance (layer : Layer) : Decidable (LeavesTables layer) :=
  inferInstanceAs (Decidable (∀ w ∈ layer, ∀ name ∈ sections, leavesTable name w.1 w.2 = true))

/-! ### Files -/

/-- Whether the keys of entries are names, and no paths. -/
def PlainKeys (entries : List (String × Setting)) : Prop :=
  ∀ e ∈ entries, e.1 ≠ "" ∧ ∀ c ∈ e.1.toList, isNameChar c = true

theorem pathOf_of_isNameChar {key : String} (hne : key ≠ "")
    (h : ∀ c ∈ key.toList, isNameChar c = true) : pathOf key.toList = [.key key] := by
  have hall : key.toList.takeWhile isNameChar = key.toList := List.takeWhile_eq_self_iff.mpr h
  have hfilled : key.toList.isEmpty = false := by
    rw [List.isEmpty_eq_false_iff]
    exact fun hnil ↦ hne (String.toList_eq_nil_iff.mp hnil)
  have hsplit : splitName? key.toList = some (.key key, []) := by
    simp [splitName?, hall, hfilled]
  simp [pathOf, hsplit, readSteps?]

/-- A file has for a setting what stands at its place. -/
theorem valueIn?_fileLayer {entries : List (String × Setting)} (h : PlainKeys entries)
    (item : Item) : item.valueIn? (fileLayer entries) = valueIn? item.place (.table entries) := by
  have hwrites : fileLayer entries = entries.map fun e ↦ ([.key e.1], e.2) :=
    List.map_congr_left fun e he ↦ congrArg (·, e.2) (pathOf_of_isNameChar (h e he).1 (h e he).2)
  rw [Item.valueIn?, hwrites, ← List.map_reverse, List.findSome?_map]
  cases item <;> rfl

/-! ### Variables -/

/-- Whether variables name single settings, as far as they belong to the configuration at all. -/
def NameSettings (vars : List (String × String)) : Prop :=
  ∀ v ∈ vars, (∃ item : Item, v.1 = item.variableName) ∨
    ¬ "statreg_".toList <+: v.1.toList.map lower

/-- The variable of a setting names the setting's place. -/
theorem variablePath?_variableName (item : Item) :
    variablePath? item.variableName = some (item.place.map .key) := by
  cases item <;> decide

theorem variablePath?_eq_none {name : String}
    (h : ¬ "statreg_".toList <+: name.toList.map lower) : variablePath? name = none :=
  if_neg fun hprefix ↦ h (List.isPrefixOf_iff_prefix.mp hprefix)

theorem Item.variableName_inj {item other : Item} :
    item.variableName = other.variableName ↔ item = other := by
  cases item <;> cases other <;> decide

/-- The text of a variable stands for a single value. -/
theorem plain_variableValue (text : String) : (variableValue text).plain = variableValue text := by
  unfold variableValue
  split
  · rfl
  · rfl
  · split
    · rfl
    · split <;> rfl

/-- What a variable gives to a setting. -/
theorem given?_variable (item : Item) {v : String × String}
    (h : (∃ other : Item, v.1 = other.variableName) ∨
      ¬ "statreg_".toList <+: v.1.toList.map lower) :
    (variableWrite? v).bind (fun write ↦ given? item.place write.1 write.2) =
      if item.variableName = v.1 then some (variableValue v.2) else none := by
  rw [variableWrite?]
  rcases h with ⟨other, hother⟩ | hprefix
  · rw [hother, variablePath?_variableName, Option.map_some, Option.bind_some, given?_place,
      plain_variableValue]
    simp only [Item.variableName_inj, eq_comm]
  · have hne : item.variableName ≠ v.1 := by
      intro heq
      have hnone := variablePath?_eq_none hprefix
      rw [← heq, variablePath?_variableName] at hnone
      cases hnone
    rw [variablePath?_eq_none hprefix, if_neg hne]
    rfl

/-- The variables have for a setting what the last one under its name stands for. -/
theorem valueIn?_variableLayer {vars : List (String × String)} (h : NameSettings vars)
    (item : Item) : item.valueIn? (variableLayer vars) =
      (vars.reverse.lookup item.variableName).map variableValue := by
  have hreverse : NameSettings vars.reverse := fun v hv ↦ h v (List.mem_reverse.mp hv)
  -- The first write that gives something to the setting comes from the first variable that does.
  rw [Item.valueIn?, variableLayer, ← List.filterMap_reverse, ← List.head?_filterMap,
    List.filterMap_filterMap, List.head?_filterMap, List.lookup_eq_findSome?, List.map_findSome?]
  simp only [beq_iff_eq]
  generalize vars.reverse = us at hreverse
  induction us with
  | nil => rfl
  | cons v us ih =>
    obtain ⟨hv, hus⟩ := List.forall_mem_cons.mp hreverse
    rw [List.findSome?_cons, List.findSome?_cons, given?_variable item hv, ih hus]
    by_cases hname : item.variableName = v.1
    · simp [hname]
    · simp [hname]

/-- Variables that name single settings leave the sections tables. -/
theorem leavesTables_variableLayer {vars : List (String × String)} (h : NameSettings vars) :
    LeavesTables (variableLayer vars) := by
  intro w hw name hname
  obtain ⟨v, hv, hw⟩ := List.mem_filterMap.mp hw
  rw [variableWrite?] at hw
  rcases h v hv with ⟨item, hitem⟩ | hprefix
  · rw [hitem, variablePath?_variableName] at hw
    cases hw
    exact leavesTable_place item _ hname
  · rw [variablePath?_eq_none hprefix] at hw
    cases hw

/-! ### Sources -/

/-- What a setting has from the sources. -/
structure Item.HasSources (item : Item) : Prop where
  /-- What is written for another setting is nothing for this one. -/
  apart : ∀ other : Item, other ≠ item → ∀ v, given? item.place (other.place.map .key) v = none
  /-- A section that lacks the key of the setting is nothing for it. -/
  lacking : ∀ name key es, item.place = [name, key] → key ∉ es.map (·.1) →
    given? item.place [.key name] (.table es) = none
  ofFile : ∀ entries, PlainKeys entries →
    item.valueIn? (fileLayer entries) = Settings.valueIn? item.place (.table entries)
  /-- The variables have what the last one under the name of the setting stands for. -/
  ofVariables : ∀ vars, NameSettings vars → item.valueIn? (variableLayer vars) =
    (vars.reverse.lookup item.variableName).map variableValue

theorem Item.hasSources (item : Item) : item.HasSources := by
  refine ⟨fun other hne v ↦ ?_, fun name key es hplace hkey ↦ ?_,
    fun entries h ↦ valueIn?_fileLayer h item, fun vars h ↦ valueIn?_variableLayer h item⟩
  · rw [given?_place, if_neg hne]
  · rw [hplace]
    exact given?_section hkey name

end SamplingFrame.Settings
