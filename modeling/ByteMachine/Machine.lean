/-
The machine: a configuration, a program, the name of the preset it came from, and the state.

Status:
- loading makes the machine idle, whatever it was;
- running starts at the pointer, or at the first statement when the program has been completed;
- executing the last statement completes the program; another statement executed by hand pauses an idle machine;
- a step beyond the last statement executes nothing and goes back to the first one.

Contents:
- `Machine.withConfig`: a fresh machine;
- `Machine.load`, `Machine.loadSource`, `Machine.loadPreset`: loading. A load that fails changes nothing;
- `Machine.step`: one statement, or the way back to the first;
- `Machine.run`, `Machine.pause`, `Machine.toggle`, `Machine.tick`: automatic execution;
- `Machine.runToCompletion`: executes at most a given number of statements;
- `Machine.reset`: everything zero, the program stays.

Main statement: `runToCompletion_zero` (nothing to execute changes nothing).
-/
import ByteMachine.Machine.Execute
import ByteMachine.Program.Assembly
import ByteMachine.Program.Listing
import ByteMachine.Program.Preset

namespace ByteMachine

structure Machine where
  config : Config
  program : Program := {}
  /-- the name of the preset that the program came from -/
  preset : Option String := none
  state : State
  deriving DecidableEq

/-- what a step did -/
inductive StepOutcome
  /-- it executed a statement -/
  | executed (entry : TraceEntry)
  /-- it went back to the first statement -/
  | restarted
  deriving DecidableEq, Repr

/-- how many statements a step executed -/
def StepOutcome.count : StepOutcome → Nat
  | .executed _ => 1
  | .restarted => 0

/-- why a program is not loaded -/
inductive LoadError
  /-- it has no statement -/
  | emptyProgram
  | unknownPreset (name : String)
  | assembly (e : AssemblyError)
  deriving DecidableEq, Repr

def LoadError.message : LoadError → String
  | .emptyProgram => "cannot load an empty micro-program"
  | .unknownPreset name => "unknown preset: " ++ name
  | .assembly e => e.message

/-! ## Steps of a state -/

namespace State

/-- back at the first statement; a completed machine is idle again -/
def restart (s : State) : State :=
  { s with currentStep := 0, status := if s.status = .completed then .idle else s.status }

/-- the status after a statement, when `next` is the pointer and `length` the length of the program -/
def statusAfter (status : RunStatus) (next length : Nat) : RunStatus :=
  if length ≤ next then .completed
  else match status with
    | .idle | .completed => .paused
    | other => other

/-- the entry goes to the end of the trace and the pointer moves on -/
def record (s : State) (entry : TraceEntry) (length : Nat) : State :=
  { s with
    trace := s.trace ++ [entry]
    currentStep := s.currentStep + 1
    status := statusAfter s.status (s.currentStep + 1) length }

end State

namespace Machine

/-- a machine without program, everything zero -/
def fresh (c : Config) : Machine :=
  { config := c, state := .initial c }

/-- the machine with the default configuration -/
def standard : Machine :=
  fresh {}

/-- a fresh machine, if the configuration is valid -/
def withConfig (c : Config) : Except ConfigError Machine :=
  c.validate.map fresh

def isRunning (m : Machine) : Bool :=
  m.state.status == .running

def isCompleted (m : Machine) : Bool :=
  m.state.status == .completed

/-! ## Loading -/

/-- replaces the program and rewinds; registers, memory, buses and flags stay -/
def load (m : Machine) (p : Program) : Except LoadError Machine :=
  if p.isEmpty then .error .emptyProgram
  else .ok { m with program := p, preset := none, state := m.state.rewind }

def loadTexts (m : Machine) (texts : List String) : Except LoadError Machine :=
  m.load (.ofTexts texts)

def loadSource (m : Machine) (source : String) : Except LoadError Machine :=
  match Program.assemble source with
  | .error e => .error (.assembly e)
  | .ok p => m.load p

def loadPreset (m : Machine) (name : String) : Except LoadError Machine :=
  match Preset.find? name with
  | none => .error (.unknownPreset name)
  | some preset => (m.load preset.program).map fun m => { m with preset := some preset.name }

/-! ## Stepping -/

def step (m : Machine) : StepOutcome × Machine :=
  match m.program.statement? m.state.currentStep with
  | none => (.restarted, { m with state := m.state.restart })
  | some statement =>
    let after := m.state.execute m.config.memorySize statement.op
    let entry := ⟨m.state.currentStep, statement.source, after.remark statement.op⟩
    (.executed entry, { m with state := after.record entry m.program.length })

/-- the outcomes of `n` steps -/
def steps : Nat → Machine → List StepOutcome × Machine
  | 0, m => ([], m)
  | n + 1, m =>
    let (outcome, m) := m.step
    let (outcomes, m) := steps n m
    (outcome :: outcomes, m)

/-- starts automatic execution; without a program nothing happens -/
def run (m : Machine) : Machine :=
  if m.program.isEmpty then m
  else
    let atEnd := m.isCompleted || m.program.length ≤ m.state.currentStep
    { m with
      state :=
        { m.state with
          currentStep := if atEnd then 0 else m.state.currentStep
          status := .running } }

/-- stops automatic execution -/
def pause (m : Machine) : Machine :=
  if m.isRunning then { m with state := { m.state with status := .paused } } else m

def toggle (m : Machine) : Machine :=
  if m.isRunning then m.pause else m.run

/-- one step, if the machine is running -/
def tick (m : Machine) : Option StepOutcome × Machine :=
  if m.isRunning then
    let (outcome, m) := m.step
    (some outcome, m)
  else (none, m)

/-- steps while the machine is running, at most `limit` of them; tells how many statements were executed. A step that
goes back to the first statement uses up the limit too, which it does not in a loop that counts executed statements.
But every machine that can be reached is before a statement while it runs, and then both are the same
(`Loop.runFor_eq`). -/
def runFor : Nat → Machine → Nat × Machine
  | 0, m => (0, m)
  | limit + 1, m =>
    if m.isRunning then
      let (outcome, m) := m.step
      let (executed, m) := runFor limit m
      (outcome.count + executed, m)
    else (0, m)

/-- runs, executes at most `limit` statements, and pauses; tells how many were executed -/
def runToCompletion (m : Machine) (limit : Nat) : Nat × Machine :=
  if limit = 0 then (0, m)
  else
    let (executed, m) := runFor limit m.run
    (executed, m.pause)

def reset (m : Machine) : Machine :=
  { m with state := m.state.reset }

/-! ## Seeding -/

/-- a byte put into a general register; a register that is not there changes nothing -/
def setRegister (m : Machine) (n : Nat) (b : UInt8) : Machine :=
  { m with state := { m.state with registers := m.state.registers.write n b } }

def writeMemory (m : Machine) (address : Nat) (b : UInt8) : Machine :=
  { m with state := { m.state with memory := m.state.memory.write address b } }

def storeMemory (m : Machine) (address : Nat) (b : UInt8) : Except AddressOutOfRange Machine :=
  (m.state.memory.store address b).map fun memory => { m with state := { m.state with memory } }

def assign (m : Machine) (name : NamedRegister) (b : UInt8) : Machine :=
  { m with state := { m.state with registers := m.state.registers.assign name b } }

/-! ## Views -/

/-- the listing of the program with the next statement marked -/
def listing (m : Machine) : List ListingLine :=
  m.program.listing m.state.currentStep

def listingText (m : Machine) : String :=
  m.program.listingText m.state.currentStep

/-- a summary, for people who look into the machine -/
def inspect (m : Machine) : String :=
  "Datapath \x7b status: " ++ m.state.status.title ++ ", step: " ++ Text.numeral m.state.currentStep ++
    ", program_len: " ++ Text.numeral m.program.length ++ ", regs: " ++ m.state.registers.inspect ++ " \x7d"

/-! ## First facts -/

/-- nothing to execute changes nothing -/
theorem runToCompletion_zero (m : Machine) : m.runToCompletion 0 = (0, m) := rfl

end Machine

end ByteMachine
