/-
Snapshots: a program, a state and the name of a preset, as a document that a machine can be restored from.

A snapshot fits a configuration when memory size and register count are the configuration's, the pointer is at most the
length of the program, and every trace entry names a statement of the program. These are checked in this order, and a
snapshot that does not fit changes nothing. A running machine is restored as paused.

Contents:
- `Snapshot`: the document, its JSON and its text;
- `Snapshot.ofText`, `Snapshot.ofFile`: reading, from a text or from the content of a file;
- `Snapshot.check`: does it fit a configuration?
- `Machine.snapshot`, `Machine.restore`, `Machine.restoreText`: export and import.
-/
import ByteMachine.Directory
import ByteMachine.Document.State
import ByteMachine.Machine

namespace ByteMachine

structure Snapshot where
  program : Program
  state : State
  preset : Option String := none
  deriving DecidableEq

/-- why a snapshot is not read or not restored -/
inductive SnapshotError
  | file (e : FileError)
  /-- the text is no snapshot -/
  | malformed
  | memorySize (expected got : Nat)
  | registerCount (expected got : Nat)
  | stepOutOfRange (step length : Nat)
  deriving DecidableEq, Repr

def SnapshotError.message : SnapshotError → String
  | .file e => "I/O error: " ++ e.message
  | .malformed => "malformed snapshot"
  | .memorySize expected got =>
    "snapshot has " ++ Text.numeral got ++ " memory cells, datapath has " ++ Text.numeral expected
  | .registerCount expected got =>
    "snapshot has " ++ Text.numeral got ++ " registers, datapath has " ++ Text.numeral expected
  | .stepOutOfRange step length =>
    "step " ++ Text.numeral step ++ " is outside a program of " ++ Text.numeral length ++ " statements"

namespace Snapshot

/-! ## Documents -/

def toJson (s : Snapshot) : Json :=
  .object [("microProgram", s.program.toJson), ("state", s.state.toJson), ("presetName", .optionalText s.preset)]

/-- the name of the preset may be left out -/
def presetOfJson? : Option Json → Option (Option String)
  | none => some none
  | some j => j.optionalText?

def ofJson? (j : Json) : Option Snapshot :=
  match j.fields? .ignored ["microProgram", "state", "presetName"] with
  | some [some program, some state, preset] => do
    return {
      program := ← Program.ofJson? program
      state := ← State.ofJson? state
      preset := ← presetOfJson? preset }
  | _ => none

/-- the document as text, one line per item and member -/
def text (s : Snapshot) : String :=
  s.toJson.spread

/-- the content of a file that holds the document -/
def fileText (s : Snapshot) : String :=
  s.text ++ "\n"

def ofText (s : String) : Except SnapshotError Snapshot :=
  match (Json.read s).bind ofJson? with
  | some snapshot => .ok snapshot
  | none => .error .malformed

/-- the snapshot in a file, given what reading the file as text gave -/
def ofFile : Except FileError String → Except SnapshotError Snapshot
  | .error e => .error (.file e)
  | .ok s => ofText s

/-! ## Checking -/

/-- nothing if the snapshot fits the configuration, or the first thing that does not fit -/
def check (s : Snapshot) (c : Config) : Except SnapshotError Unit :=
  let length := s.program.length
  if s.state.memory.size ≠ c.memorySize then .error (.memorySize c.memorySize s.state.memory.size)
  else if s.state.registers.count ≠ c.registerCount then
    .error (.registerCount c.registerCount s.state.registers.count)
  else if length < s.state.currentStep then .error (.stepOutOfRange s.state.currentStep length)
  else
    match s.state.trace.find? fun e => length ≤ e.step with
    | some e => .error (.stepOutOfRange e.step length)
    | none => .ok ()

end Snapshot

namespace State

/-- the state with automatic execution stopped -/
def paused (s : State) : State :=
  if s.status = .running then { s with status := .paused } else s

end State

namespace Machine

/-! ## Export and import -/

def snapshot (m : Machine) : Snapshot :=
  { program := m.program, state := m.state, preset := m.preset }

/-- the machine with the snapshot's program, state and preset name, if the snapshot fits -/
def restore (m : Machine) (s : Snapshot) : Except SnapshotError Machine :=
  match s.check m.config with
  | .error e => .error e
  | .ok () => .ok { m with program := s.program, state := s.state.paused, preset := s.preset }

def restoreText (m : Machine) (text : String) : Except SnapshotError Machine :=
  match Snapshot.ofText text with
  | .error e => .error e
  | .ok s => m.restore s

end Machine

end ByteMachine
