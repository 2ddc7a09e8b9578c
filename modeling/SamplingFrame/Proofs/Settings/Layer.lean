import SamplingFrame.Proofs.Settings.Source

/-!
# Layers of settings

Each file and the variables together make up a layer of a configuration. Every setting has the
value that the last layer has for this setting, whatever else that layer sets, and what is built in
if no layer has one. Only these six values are converted, so loading fails just where one of them
cannot be.
-/

namespace SamplingFrame.Settings

open Setting

/-! ### Layers -/

/-- The layers of files and variables, the later ones over the earlier ones. -/
def layers (files : List (List (String × Setting))) (vars : List (String × String)) : List Layer :=
  files.map fileLayer ++ [variableLayer vars]

/-- What the sources have for a setting, each one over those that follow: the variables, the file of
the service, the file of the environment, the file of all services, and what is built in. -/
def Item.winner (service environment : String) (shared particular own varying : Layer)
    (item : Item) : Setting :=
  ((item.valueIn? varying).or <| (item.valueIn? own).or <| (item.valueIn? particular).or <|
    item.valueIn? shared).getD (item.builtin service environment)

/-! ### One write after the other -/

/-- The first step of a path is a key. -/
theorem exists_pathOf_eq (key : List Char) : ∃ k path, pathOf key = .key k :: path := by
  rw [pathOf]
  cases hsplit : splitName? key with
  | none => exact ⟨_, _, rfl⟩
  | some split =>
    obtain ⟨step, rest⟩ := split
    obtain ⟨k, rfl⟩ : ∃ k, step = .key k := by
      rw [splitName?] at hsplit
      split at hsplit
      · cases hsplit
      · cases hsplit
        exact ⟨_, rfl⟩
    cases hrest : readSteps? rest.length rest with
    | none => exact ⟨String.ofList key, [], by simp [hrest]⟩
    | some path => exact ⟨k, path, by simp [hrest]⟩

/-- Whether a section is a table, if it is there. -/
def SectionIsTable (name : String) (tree : Setting) : Prop :=
  ∀ v, find? name tree.entries = some v → v.isTable = true

variable {name : String} {path : List Step} {v tree : Setting}

theorem exists_eq_table (h : v.isTable = true) : ∃ es, v = .table es := by
  cases v <;> first | exact ⟨_, rfl⟩ | cases h

theorem isTable_setAt_key (k : String) (path : List Step) (v earlier : Setting) :
    (setAt v (.key k :: path) earlier).isTable = true := rfl

theorem isTable_override (h : v.isTable = true) (earlier : Setting) :
    (earlier.override v).isTable = true := by
  obtain ⟨es, rfl⟩ := exists_eq_table h
  rw [override]
  rfl

/-- A section stays a table under every write that leaves it one. -/
theorem sectionIsTable_setAt {k : String} (h : leavesTable name (.key k :: path) v = true)
    (htree : SectionIsTable name tree) :
    SectionIsTable name (setAt v (.key k :: path) tree) := by
  intro w hw
  rw [setAt, entries] at hw
  by_cases hk : k = name
  · subst hk
    rw [find?_put_self, Option.some.injEq] at hw
    subst hw
    cases path with
    | nil => exact isTable_override (by simpa [leavesTable] using h) _
    | cons step path =>
      cases step with
      | key k' => exact isTable_setAt_key k' path v _
      | index i => simp [leavesTable] at h
  · rw [find?_put_of_ne hk] at hw
    exact htree w hw

theorem keeps_nil (path : List Step) (v : Setting) : Keeps [] path v := by
  cases path <;> simp [Keeps, KeepsTables]

/-- A write that leaves a section a table keeps the tables above the section's keys. -/
theorem keeps_of_leavesTable {k : String} (h : leavesTable name (.key k :: path) v = true)
    (item : String) : Keeps [name, item] (.key k :: path) v := by
  intro hk
  cases path with
  | nil =>
    have htable : v.isTable = true := by simpa [leavesTable, hk] using h
    obtain ⟨es, rfl⟩ := exists_eq_table htable
    exact ⟨es, rfl, fun e _ _ ↦ trivial⟩
  | cons step path =>
    cases step with
    | key k' => exact fun _ ↦ keeps_nil path v
    | index i => simp [leavesTable, hk] at h

theorem keeps_place {k : String}
    (h : ∀ name ∈ sections, leavesTable name (.key k :: path) v = true) (item : Item) :
    Keeps item.place (.key k :: path) v := by
  have hobservability := keeps_of_leavesTable (h "observability" (by decide))
  have hsampleFrame := keeps_of_leavesTable (h "sample_frame" (by decide))
  cases item with
  | serviceName | environment => exact fun _ ↦ keeps_nil path v
  | logLevel | logFormat => exact hobservability _
  | previewLimit | scanLimit => exact hsampleFrame _

/-! ### All writes of all layers -/

/-- A write of a layer. -/
def write (tree : Setting) (w : List Step × Setting) : Setting := setAt w.2 w.1 tree

/-- The configuration of files and variables as that of their layers. -/
theorem treeOf_eq_foldl (base : Setting) (files : List (List (String × Setting)))
    (vars : List (String × String)) :
    treeOf base files vars = (layers files vars).foldl (List.foldl write) base := by
  have hfile : layFile = fun tree entries ↦ (fileLayer entries).foldl write tree := by
    funext tree entries
    rw [fileLayer, List.foldl_map]
    rfl
  have hvariable (tree : Setting) (v : String × String) :
      layVariable tree v.1 v.2 = (variableWrite? v).elim tree (write tree) := by
    rw [layVariable, variableWrite?]
    cases variablePath? v.1 <;> rfl
  have hvars (tree : Setting) : vars.foldl (fun tree v ↦ layVariable tree v.1 v.2) tree =
      (variableLayer vars).foldl write tree := by
    rw [variableLayer]
    induction vars generalizing tree with
    | nil => rfl
    | cons v vars ih =>
      rw [List.foldl_cons, ih, hvariable, List.filterMap_cons]
      cases variableWrite? v <;> rfl
  rw [layers, List.foldl_append, List.foldl_map, ← hfile]
  exact hvars _

/-- What is found after a fold whose steps each give something new or leave what was there. -/
theorem view_foldl {σ α β : Type} {step : σ → α → σ} {view? : σ → Option β} {gives? : α → Option β}
    {as : List α} (h : ∀ a ∈ as, ∀ s, view? (step s a) = (gives? a).or (view? s)) (s : σ) :
    view? (as.foldl step s) = (as.reverse.findSome? gives?).or (view? s) := by
  induction as generalizing s with
  | nil => rfl
  | cons a as ih =>
    rw [List.foldl_cons, ih fun a' ha' ↦ h a' (List.mem_cons_of_mem _ ha'),
      h a List.mem_cons_self, ← Option.or_assoc, List.reverse_cons, List.findSome?_append,
      List.findSome?_singleton]

/-- What a layer leaves at the place of a setting. -/
theorem valueAt?_layer {layer : Layer} (hkeys : ∀ w ∈ layer, ∃ k path, w.1 = .key k :: path)
    (h : LeavesTables layer) (item : Item) (tree : Setting) :
    valueAt? item.place (layer.foldl write tree) =
      (item.valueIn? layer).or (valueAt? item.place tree) := by
  refine view_foldl (fun w hw tree ↦ ?_) tree
  obtain ⟨k, path, hpath⟩ := hkeys w hw
  have hw := h w hw
  rw [hpath] at hw
  rw [write, hpath, valueAt?_setAt (keeps_place hw item)]

/-- Every write of a file or a variable starts at a key. -/
theorem exists_key_of_mem_layers {files : List (List (String × Setting))}
    {vars : List (String × String)} {layer : Layer} (h : layer ∈ layers files vars)
    {w : List Step × Setting} (hw : w ∈ layer) : ∃ k path, w.1 = .key k :: path := by
  rw [layers, List.mem_append, List.mem_map, List.mem_singleton] at h
  obtain ⟨entries, -, rfl⟩ | rfl := h
  · obtain ⟨e, -, rfl⟩ := List.mem_map.mp hw
    exact exists_pathOf_eq _
  · obtain ⟨e, -, he⟩ := List.mem_filterMap.mp hw
    obtain ⟨path, hpath, rfl⟩ := Option.map_eq_some_iff.mp he
    simp only [variablePath?] at hpath
    split at hpath
    · cases hpath
      exact exists_pathOf_eq _
    · cases hpath

section Run

variable {files : List (List (String × Setting))} {vars : List (String × String)}
  (htables : ∀ layer ∈ layers files vars, LeavesTables layer)

include htables

/-- Sections are tables or missing after all writes, if they were before. -/
theorem sectionIsTable_treeOf (hname : name ∈ sections) {base : Setting}
    (hbase : SectionIsTable name base) : SectionIsTable name (treeOf base files vars) := by
  rw [treeOf_eq_foldl]
  refine List.foldlRecOn _ _ hbase fun tree htree layer hlayer ↦ ?_
  refine List.foldlRecOn _ _ htree fun tree htree w hw ↦ ?_
  obtain ⟨k, path, hpath⟩ := exists_key_of_mem_layers hlayer hw
  have hleaves := htables layer hlayer w hw name hname
  rw [hpath] at hleaves
  rw [write, hpath]
  exact sectionIsTable_setAt hleaves htree

/-- What stands at the place of a setting after all writes. -/
theorem valueAt?_treeOf (item : Item) (base : Setting) :
    valueAt? item.place (treeOf base files vars) =
      ((layers files vars).reverse.findSome? item.valueIn?).or (valueAt? item.place base) := by
  rw [treeOf_eq_foldl]
  exact view_foldl (fun layer hlayer tree ↦
    valueAt?_layer (fun _ hw ↦ exists_key_of_mem_layers hlayer hw) (htables layer hlayer) item tree)
    base

end Run

/-! ### What is read in the end -/

theorem textAt_eq (key builtin : String) (tree : Tree) :
    textAt key builtin tree = ((valueAt? [key] (.table tree)).getD (.text builtin)).toText? := by
  rw [textAt, valueAt?_table]
  cases find? key tree with
  | none => rfl
  | some v => exact (toText?_plain v).symm

theorem countAt_eq (key : String) (builtin : Nat) (tree : Tree) :
    countAt key builtin tree =
      ((valueAt? [key] (.table tree)).getD (.integer builtin)).toCount? := by
  rw [countAt, valueAt?_table]
  cases find? key tree with
  | none => simp [toCount?]
  | some v => exact (toCount?_plain v).symm

/-- A section that is a table, if it is there, has the entries that are found below it. -/
theorem exists_sectionAt {tree : Setting} (h : SectionIsTable name tree) (keys : List String) :
    ∃ es, sectionAt name keys tree.entries = some es ∧
      ∀ key, valueAt? [key] (.table es) = valueAt? [name, key] tree := by
  rw [sectionAt]
  cases hfind : find? name tree.entries with
  | none => exact ⟨[], rfl, fun key ↦ by rw [valueAt?, valueAt?, hfind]; rfl⟩
  | some v =>
    obtain ⟨es, rfl⟩ := exists_eq_table (h v hfind)
    exact ⟨es, rfl, fun key ↦ by rw [valueAt?, valueAt?, hfind]; rfl⟩

/-- The settings that a configuration gives are the values at their places, converted. -/
theorem ofTree?_eq {tree : Setting} (h : ∀ name ∈ sections, SectionIsTable name tree) :
    ofTree? tree.entries = ofValues? fun item ↦
      (valueAt? item.place tree).getD
        (item.builtin Settings.builtin.serviceName Settings.builtin.environment) := by
  obtain ⟨observability, hobservability, hlog⟩ :=
    exists_sectionAt (h "observability" (by decide)) ["log_level", "log_format"]
  obtain ⟨sampleFrame, hsampleFrame, hlimit⟩ :=
    exists_sectionAt (h "sample_frame" (by decide)) ["preview_limit", "scan_limit"]
  simp only [ofTree?, hobservability, hsampleFrame, Option.bind_eq_bind, Option.bind_some,
    textAt_eq, countAt_eq, hlog, hlimit]
  rfl

/-- The last layer of three files and the variables that has something for a setting. -/
theorem findSome?_layers (shared particular own : List (String × Setting))
    (vars : List (String × String)) (item : Item) :
    (layers [shared, particular, own] vars).reverse.findSome? item.valueIn? =
      ((item.valueIn? (variableLayer vars)).or <| (item.valueIn? (fileLayer own)).or <|
        (item.valueIn? (fileLayer particular)).or <| item.valueIn? (fileLayer shared)) := by
  have hlayers : (layers [shared, particular, own] vars).reverse =
    [variableLayer vars, fileLayer own, fileLayer particular, fileLayer shared] := rfl
  have hor {a : Layer} {as : List Layer} :
      (a :: as).findSome? item.valueIn? = (item.valueIn? a).or (as.findSome? item.valueIn?) := by
    rw [List.findSome?_cons]
    cases item.valueIn? a <;> rfl
  rw [hlayers, hor, hor, hor, List.findSome?_singleton]

section Load

variable {service environment : String} {file : String → Option String}
  {shared particular own : List (String × Setting)} {vars : List (String × String)}

/-- Loading converts the values that win. -/
theorem load_eq_ofValues? (hshared : readFile? file "default.toml" = some shared)
    (hparticular : readFile? file (environment ++ ".toml") = some particular)
    (hown : readFile? file (service ++ ".toml") = some own)
    (htables : ∀ layer ∈ layers [shared, particular, own] vars, LeavesTables layer) :
    load service environment file vars = ofValues? (Item.winner service environment
      (fileLayer shared) (fileLayer particular) (fileLayer own) (variableLayer vars)) := by
  let base : Setting :=
    .table [("service_name", .text service), ("environment", .text environment)]
  have hbase : ∀ name ∈ sections, SectionIsTable name base := by
    intro name hname v hv
    obtain rfl | rfl : name = "observability" ∨ name = "sample_frame" := by
      simpa [sections] using hname
    all_goals cases hv
  have hfiles : (fileNames service environment).mapM (readFile? file) =
      some [shared, particular, own] := by
    simp [fileNames, hshared, hparticular, hown]
  -- Sections that are no tables would be read otherwise, or not at all, so this comes first.
  rw [load, hfiles, Option.bind_eq_bind, Option.bind_some,
    ofTree?_eq fun name hname ↦ sectionIsTable_treeOf htables hname (hbase name hname)]
  refine congrArg ofValues? (funext fun item ↦ ?_)
  rw [valueAt?_treeOf htables, findSome?_layers, Item.winner]
  cases (item.valueIn? (variableLayer vars)).or <| (item.valueIn? (fileLayer own)).or <|
      (item.valueIn? (fileLayer particular)).or <| item.valueIn? (fileLayer shared) with
  | some v => rfl
  | none => cases item <;> rfl

end Load

/-- Files of a service: one for every environment, one for production, and one of its own. -/
def productionFiles (name : String) : Option String :=
  if name = "default.toml" then
    some ("observability.log_format = \"json\"\n" ++
      "[sample_frame]\npreview_limit = \"many\"\nscan_limit = 500")
  else if name = "production.toml" then
    some "observability.log_level = \"warn\"\nsample_frame.scan_limit = 700"
  else if name = "sample-frame.toml" then
    some "[sample_frame]\nscan_limit = 900"
  else none

/-- The entries of one of these files. -/
def productionEntries (name : String) : List (String × Setting) :=
  (readFile? productionFiles name).getD []

end SamplingFrame.Settings
