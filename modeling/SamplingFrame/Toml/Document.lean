import SamplingFrame.Settings.Value

/-!
# Tables of a TOML document

How the tables of a document grow while it is read. A table may be opened by a header only once, a
key may be given only once, and dotted keys and headers may not extend each other's tables.
-/

namespace SamplingFrame.Toml

/-- How a table came into being: by its own header, on the way to another header, or on the way to a
dotted key. -/
inductive Origin where
  | header
  | implicit
  | dotted
  deriving DecidableEq, Repr

/-- What a key stands for while a document is read. -/
inductive Node where
  | value (v : Setting)
  | table (origin : Origin) (entries : List (String × Node))
  /-- A list of tables, the last one first. -/
  | tables (items : List (List (String × Node)))

/-- The entries of a table. -/
abbrev Entries := List (String × Node)

/-- What a key stands for. -/
def Entries.find? (es : Entries) (key : String) : Option Node :=
  (List.find? (·.1 == key) es).map (·.2)

/-- Sets what a key stands for. -/
def Entries.put (key : String) (node : Node) : Entries → Entries
  | [] => [(key, node)]
  | (k, v) :: es => if k = key then (k, node) :: es else (k, v) :: Entries.put key node es

/-- Changes the table at the end of a path, creating those on the way. `made` says how they come
into being, and `change` learns whether the table belongs to a dotted key. -/
def Entries.enter (made : Origin) (change : Bool → Entries → Option Entries) :
    List String → Bool → Entries → Option Entries
  | [], isDotted, es => change isDotted es
  | k :: ks, _, es =>
    match es.find? k with
    | none => do
      let inner ← Entries.enter made change ks (made == .dotted) []
      return es.put k (.table made inner)
    | some (.value _) => none
    | some (.table origin inner) =>
      if made = .dotted && origin = .header then none
      else do
        let inner ← Entries.enter made change ks (origin == .dotted) inner
        return es.put k (.table origin inner)
    | some (.tables (last :: earlier)) => do
      let last ← Entries.enter made change ks false last
      return es.put k (.tables (last :: earlier))
    | some (.tables []) => none

/-- Adds a value under a dotted key. -/
def Entries.add (path : List String) (key : String) (v : Setting) (es : Entries) : Option Entries :=
  Entries.enter .dotted (fun isDotted inner =>
    if isDotted == path.isEmpty || (inner.find? key).isSome then none
    else some (inner.put key (.value v))) path false es

/-- Opens a table by its header. -/
def Entries.openTable (path : List String) (key : String) (es : Entries) : Option Entries :=
  Entries.enter .implicit (fun _ inner =>
    match inner.find? key with
    | none => some (inner.put key (.table .header []))
    | some (.table .implicit entries) => some (inner.put key (.table .header entries))
    | _ => none) path false es

/-- Opens the next table of a list by its header. -/
def Entries.openItem (path : List String) (key : String) (es : Entries) : Option Entries :=
  Entries.enter .implicit (fun _ inner =>
    match inner.find? key with
    | none => some (inner.put key (.tables [[]]))
    | some (.tables items) => some (inner.put key (.tables ([] :: items)))
    | _ => none) path false es

/-- Adds a value below the table that was opened last. -/
def Entries.addBelow (opened path : List String) (key : String) (v : Setting) (es : Entries) :
    Option Entries :=
  Entries.enter .implicit (fun _ inner => inner.add path key v) opened false es

mutual

/-- The value that a node stands for. -/
def Node.toSetting : Node → Setting
  | .value v => v
  | .table _ es => .table (toSettings es)
  | .tables items => .list (toTables items).reverse

/-- The values that entries stand for. -/
def toSettings : List (String × Node) → List (String × Setting)
  | [] => []
  | (k, n) :: es => (k, n.toSetting) :: toSettings es

/-- The tables of a list. -/
def toTables : List (List (String × Node)) → List Setting
  | [] => []
  | es :: items => .table (toSettings es) :: toTables items

end

end SamplingFrame.Toml
