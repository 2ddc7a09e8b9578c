import SamplingFrame.Calendar.Timestamp
import SamplingFrame.Group.Predicate

/-!
# Sampling frames

A frame selects units by a group of rules and shows some of their fields. It is compiled once; the
compiler counts the frames that it has compiled.
-/

namespace SamplingFrame

/-- A selection of units and the columns in which it is shown. -/
structure Frame where
  /-- What identifies the frame. -/
  id : String
  /-- What the frame is called. -/
  name : String
  /-- Which units are selected. -/
  selection : Group
  /-- Which fields are shown, in the order that was asked for. -/
  columns : List Field
  /-- When the frame was made, if that was noted. -/
  createdAt : Option Timestamp
  deriving Repr

/-- A frame that is ready to be run. -/
structure CompiledFrame where
  /-- The frame. -/
  frame : Frame
  /-- Which units are selected. -/
  predicate : Predicate Test
  /-- The fields that the selection may read. -/
  required : List Field
  /-- How many frames its compiler had compiled with this one. -/
  version : Nat

/-- The frame of given parts, ready to be run, as number `version` of its compiler. A frame without
columns is refused before its rules are looked at. -/
def Frame.compile (frame : Frame) (version : Nat) : Except Fault CompiledFrame :=
  if frame.columns.isEmpty then .error .noOutputFields
  else do
    let predicate ← frame.selection.predicate
    return { frame, predicate, required := frame.selection.fields, version }

/-- A compiler, which counts its successes. -/
structure Compiler where
  /-- How many frames have been compiled. -/
  version : Nat
  deriving DecidableEq, Repr

namespace Compiler

/-- A compiler that has compiled nothing yet. -/
def new : Compiler := ⟨0⟩

/-- Compiles a frame; only a success counts. -/
def compile (compiler : Compiler) (frame : Frame) : Except Fault CompiledFrame × Compiler :=
  match frame.compile (compiler.version + 1) with
  | .ok compiled => (.ok compiled, ⟨compiler.version + 1⟩)
  | .error fault => (.error fault, compiler)

end Compiler

end SamplingFrame
