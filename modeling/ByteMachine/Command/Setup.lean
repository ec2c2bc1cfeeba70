/-
Setting up a machine: where the program and the initial state come from, and what may go wrong.

Order: the configuration, the clock interval, the machine, its program, the memory cells, the registers. The first
thing that fails ends the setup; what has been said until then stays said.

Contents:
- `Source`, `Setup`: what is asked for;
- `Failure`: why a command ends early;
- `Setup.config`, `Setup.loaded`, `Setup.seed`: the three stages;
- `Setup.prepare`: all of them, on a directory.
-/
import ByteMachine.Snapshot

namespace ByteMachine

/-! ## What is asked for -/

/-- where the program comes from -/
inductive Source
  /-- a preset by its name, as it was given -/
  | preset (name : String)
  /-- a program text by its path -/
  | program (path : String)
  /-- a snapshot by its path, which brings the state too -/
  | snapshot (path : String)
  deriving DecidableEq, Repr

structure Setup where
  source : Source := .preset "fetch-decode-execute"
  /-- the path of a configuration -/
  config : Option String := none
  /-- the clock interval in milliseconds, instead of the configuration's -/
  interval : Option Nat := none
  /-- memory cells to set, in this order -/
  cells : List (Nat × UInt8) := []
  /-- registers to set, in this order -/
  registers : List (Nat × UInt8) := []
  /-- is a statement that is no transfer refused? -/
  strict : Bool := false
  deriving DecidableEq, Repr

/-! ## Failures -/

/-- why a command ends early -/
inductive Failure
  | configFile (e : FileError)
  | config (e : ConfigError)
  /-- the configuration was read, but no machine can have it -/
  | machine (e : ConfigError)
  | snapshot (e : SnapshotError)
  /-- the snapshot was read, but does not fit the machine -/
  | rejected (e : SnapshotError)
  | programFile (e : FileError)
  | assembly (e : AssemblyError)
  | load (e : LoadError)
  | cell (e : AddressOutOfRange)
  /-- there is no register with this number -/
  | register (n : Nat)
  | save (e : FileError)
  deriving DecidableEq, Repr

namespace Failure

/-- what was being done, and what was wrong -/
def message : Failure → String
  | .configFile e => "Failed to read config: " ++ e.message
  | .config e => "Bad config: " ++ e.message
  | .machine e => "Bad config: " ++ e.refusal
  | .snapshot e => "Failed to load snapshot: " ++ e.message
  | .rejected e => "Snapshot rejected: " ++ e.message
  | .programFile e => "Failed to read file: " ++ e.message
  | .assembly e => "Assembly error: " ++ e.message
  | .load e => "Failed to load program: " ++ e.message
  | .cell e => "Bad --poke: " ++ e.message
  | .register n => "Bad --reg: no register " ++ MicroOp.registerName n
  | .save e => "Failed to save snapshot: " ++ (SnapshotError.file e).message

def line (f : Failure) : String :=
  "❌ " ++ f.message

end Failure

/-! ## Stages -/

/-- a machine with its program, and what was said of it -/
structure Prepared where
  machine : Machine
  /-- what is said of the program -/
  notice : String
  /-- the statements that are no transfer -/
  warnings : List String := []
  deriving DecidableEq

/-- a setup that failed, after a program was loaded or before -/
structure Halt where
  failure : Failure
  notices : List String := []
  warnings : List String := []
  deriving DecidableEq

/-- the configuration in a file -/
def Config.ofFile (d : Directory) (path : String) : Except Failure Config :=
  match d.read path with
  | .error e => .error (.configFile e)
  | .ok text => (Config.ofText text).mapError .config

namespace Setup

/-- the configuration that was asked for, its interval replaced last -/
def configIn (s : Setup) (d : Directory) : Except Failure Config := do
  let config ← s.config.elim (.ok {}) (Config.ofFile d)
  return { config with clockIntervalMs := s.interval.getD config.clockIntervalMs }

/-- the machine with the program of a text -/
def assembleIn (s : Setup) (m : Machine) (source : String) : Except Failure Prepared := do
  let program ← ((if s.strict then Program.assembleStrict else Program.assemble) source).mapError .assembly
  let machine ← (m.load program).mapError .load
  return {
    machine
    notice := "📝 Assembled " ++ Text.numeral program.length ++ " statements"
    warnings := (diagnose source).map fun s => "⚠️  " ++ s.diagnostic }

/-- the machine with its program -/
def loaded (s : Setup) (d : Directory) (m : Machine) : Except Failure Prepared :=
  match s.source with
  | .snapshot path => do
    let snapshot ← (Snapshot.ofFile (d.read path)).mapError .snapshot
    let machine ← (m.restore snapshot).mapError .rejected
    return { machine, notice := "📂 Restored snapshot (" ++ Text.numeral machine.program.length ++ " statements)" }
  | .program path => do
    let source ← (d.read path).mapError .programFile
    s.assembleIn m source
  | .preset name => do
    let machine ← (m.loadPreset name).mapError .load
    return { machine, notice := "📂 Loaded preset " ++ name }

/-- sets memory cells; a cell that is not there ends it -/
def seedCells : List (Nat × UInt8) → Machine → Except Failure Machine
  | [], m => .ok m
  | (address, b) :: cells, m =>
    match m.storeMemory address b with
    | .error e => .error (.cell e)
    | .ok m => seedCells cells m

/-- sets registers; a register that is not there ends it -/
def seedRegisters : List (Nat × UInt8) → Machine → Except Failure Machine
  | [], m => .ok m
  | (n, b) :: registers, m =>
    if m.state.registers.holds n then seedRegisters registers (m.setRegister n b) else .error (.register n)

/-- the machine with the cells and registers that were asked for -/
def seed (s : Setup) (m : Machine) : Except Failure Machine :=
  (seedCells s.cells m).bind (seedRegisters s.registers)

/-- the machine as it was asked for -/
def prepare (s : Setup) (d : Directory) : Except Halt Prepared :=
  let found : Except Failure Prepared := do
    let config ← s.configIn d
    let machine ← (Machine.withConfig config).mapError .machine
    s.loaded d machine
  match found with
  | .error failure => .error { failure }
  | .ok p =>
    match s.seed p.machine with
    | .error failure => .error { failure, notices := [p.notice], warnings := p.warnings }
    | .ok machine => .ok { p with machine }

end Setup

end ByteMachine
