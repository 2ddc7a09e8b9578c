import SamplingFrame.Frame

/-!
# Scanning records

A scan goes through records until it has enough matches or has read as many records as it may. What
it finds is shown row by row, one text for each column.
-/

namespace SamplingFrame

/-- What a scan over records of type `ρ` has found. -/
structure Scan (ρ : Type) where
  /-- The records that matched, in order. -/
  hits : List ρ
  /-- How many records were evaluated. -/
  scanned : Nat
  /-- Whether a further record was left unread. -/
  limitReached : Bool

namespace Scan

variable {ρ : Type} {m : Type → Type} [Monad m]

/-- Scans records for up to `wanted` matches, evaluating no more than `bound` if that is given. The
evaluation of a record may fail, or have other effects. -/
def run (isMatch : ρ → m Bool) (wanted : Nat) (bound : Option Nat) : List ρ → m (Scan ρ)
  | [] => return ⟨[], 0, false⟩
  | r :: rs =>
    if wanted = 0 then return ⟨[], 0, false⟩
    else if bound = some 0 then return ⟨[], 0, true⟩
    else do
      let hit ← isMatch r
      let rest ← run isMatch (if hit then wanted - 1 else wanted) (bound.map (· - 1)) rs
      return ⟨if hit then r :: rest.hits else rest.hits, rest.scanned + 1, rest.limitReached⟩

/-- The bound that a configured limit means: zero means none. -/
def boundOf (limit : Nat) : Option Nat := if limit = 0 then none else some limit

end Scan

/-- A row of a preview: the text of each column, each column once, in the order of the catalog. -/
abbrev Row := List (Field × String)

/-- The row that shows a record. -/
def Record.row (r : Record) (columns : List Field) : Row :=
  (Field.inOrder columns).map fun f => (f, r.text f)

/-- What a frame selects, as far as a scan has gone. -/
structure Preview where
  /-- What identifies the frame. -/
  frameId : String
  /-- What the frame is called. -/
  frameName : String
  /-- A row for each match. -/
  rows : List Row
  /-- How many records were evaluated. -/
  scanned : Nat
  /-- Whether the limit of the scan left records unread. -/
  limitReached : Bool
  deriving DecidableEq, Repr

namespace Preview

/-- How many records matched. -/
def matched (p : Preview) : Nat := p.rows.length

/-- How many records were taken from their source: the one at which a scan stops is taken, too. -/
def pulled (p : Preview) : Nat := if p.limitReached then p.scanned + 1 else p.scanned

end Preview

namespace CompiledFrame

/-- Previews a compiled frame by a way to evaluate records, for up to `wanted` rows and under a
limit of records (zero for none). -/
def previewBy {m : Type → Type} [Monad m] (isMatch : Record → m Bool) (compiled : CompiledFrame)
    (records : List Record) (wanted limit : Nat) : m Preview := do
  let scan ← Scan.run isMatch wanted (Scan.boundOf limit) records
  return {
    frameId := compiled.frame.id
    frameName := compiled.frame.name
    rows := scan.hits.map (·.row compiled.frame.columns)
    scanned := scan.scanned
    limitReached := scan.limitReached }

/-- Previews a compiled frame by its own predicate. -/
def preview (compiled : CompiledFrame) (records : List Record) (wanted limit : Nat) :
    Except Violation Preview :=
  compiled.previewBy compiled.predicate.matches? records wanted limit

end CompiledFrame

end SamplingFrame
