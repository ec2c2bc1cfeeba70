/-
Commands: what can be asked for on a command line, and what each does.

Contents:
- `Command`: the commands, with the files that each reads and writes;
- `runOutcome`, `inspectOutcome`, `Session`: the commands that work on a machine;
- `Command.perform`: any command, on a directory and with the keys that are typed into it.
-/
import ByteMachine.Command.Outcome
import ByteMachine.Stepper.Key

namespace ByteMachine

inductive Command
  /-- no command: a word about the program -/
  | about
  | version
  | usage
  /-- one operation of the arithmetic-logic unit -/
  | alu (op : AluOp) (a b : UInt8) (json : Bool)
  /-- one calculation of the serial adder -/
  | add (a b : Int) (op : AdderOp) (mode : Mode) (json : Bool)
  /-- a program, run to completion or to a limit -/
  | run (setup : Setup) (limit : Nat) (trace : Bool) (saveTo : Option String)
  /-- a program, stepped by keys -/
  | debug (setup : Setup) (saveTo : Option String)
  | presets
  /-- a snapshot, with the configuration that it must fit -/
  | inspect (path : String) (config : Option String)
  deriving DecidableEq, Repr

/-! ## Files -/

/-- the files that a setup reads -/
def Setup.reads (s : Setup) : List String :=
  s.config.toList ++
    match s.source with
    | .preset _ => []
    | .program path | .snapshot path => [path]

namespace Command

/-- the files that a command reads -/
def reads : Command → List String
  | .run setup _ _ _ | .debug setup _ => setup.reads
  | .inspect path config => path :: config.toList
  | _ => []

/-- the file that a command writes, if it comes to that -/
def saveTo : Command → Option String
  | .run _ _ _ saveTo | .debug _ saveTo => saveTo
  | _ => none

end Command

/-! ## Calculators -/

def addOutcome (d : Directory) (a b : Int) (op : AdderOp) (mode : Mode) (json : Bool) : Outcome :=
  let report := (SerialAdder.mk mode).calculate a b op
  { files := d
    out := if json then [report.toJson.spread] else report.printed
    err := if mode.InRange a ∧ mode.InRange b then [] else [mode.clampLine] }

/-! ## Machines -/

def runOutcome (d : Directory) (setup : Setup) (limit : Nat) (trace : Bool) (saveTo : Option String) : Outcome :=
  match setup.prepare d with
  | .error h => .ofHalt d h
  | .ok p =>
    let e : Execution := ⟨p.machine, limit⟩
    ((Outcome.ofPrepared d p).say (e.lines trace)).saving e.after saveTo

/-- the machine that shows a snapshot: one of the given configuration, or of the snapshot's own sizes -/
def inspected (d : Directory) (path : String) (config : Option String) : Except Failure Machine := do
  let snapshot ← (Snapshot.ofFile (d.read path)).mapError .snapshot
  let config ← config.elim (.ok snapshot.ownConfig) (Config.ofFile d)
  let machine ← (Machine.withConfig config).mapError .machine
  (machine.restore snapshot).mapError .rejected

def inspectOutcome (d : Directory) (path : String) (config : Option String) : Outcome :=
  match inspected d path config with
  | .error f => (Outcome.silent d).fail f
  | .ok m => (Outcome.silent d).say (m.inspectionLines path)

/-! ## Sessions -/

/-- what was there before the screen opened, and what came after it closed -/
structure Session where
  before : Outcome
  after : Outcome

namespace Session

/-- the stepper that a session opens with; without one the session is over -/
def opened (d : Directory) (setup : Setup) : Outcome × Option Stepper :=
  match setup.prepare d with
  | .error h => (.ofHalt d h, none)
  | .ok p => ((Outcome.ofPrepared d p).say ["🚀 Launching stepper..."], some (.ofMachine p.machine))

/-- what comes after the screen has closed on this stepper -/
def closed (before : Outcome) (saveTo : Option String) (s : Stepper) : Outcome :=
  { before with out := [] }.saving s.machine saveTo

/-- a session with these keys, typed at one time -/
def ofKeys (d : Directory) (setup : Setup) (saveTo : Option String) (keys : List Key) : Session :=
  match opened d setup with
  | (before, none) => ⟨before, { before with out := [] }⟩
  | (before, some s) => ⟨before, closed before saveTo (s.play 0 keys)⟩

/-- the session as one command -/
def outcome (s : Session) : Outcome :=
  { s.after with out := s.before.out ++ s.after.out }

end Session

/-! ## Performing -/

/-- any command, on a directory and with the keys that are typed into it -/
def Command.perform (c : Command) (d : Directory) (keys : List Key) : Outcome :=
  let told (lines : List String) : Outcome := (Outcome.silent d).say lines
  match c with
  | .about => told aboutLines
  | .version => told [versionLine]
  | .usage => told usageLines
  | .alu op a b json => told (if json then [(op.evaluate a b).toJson.spread] else aluLines op a b)
  | .add a b op mode json => addOutcome d a b op mode json
  | .run setup limit trace saveTo => runOutcome d setup limit trace saveTo
  | .debug setup saveTo => (Session.ofKeys d setup saveTo keys).outcome
  | .presets => told presetLines
  | .inspect path config => inspectOutcome d path config

end ByteMachine
